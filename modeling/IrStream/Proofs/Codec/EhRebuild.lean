import Mathlib
import IrStream.Codec.Eh
import IrStream.Proofs.Wire

/-!
What the reader of an exception-region table makes of the slot records, the
trees aside. A slot record is a hole, a shared slot naming its owner's number,
or a region stored in the slot of its own number. The reader appends each
region it meets with its links cleared (`EhRegion.unlinked`), gives it the
next id, and notes its links, its aliases and the shared slots
(`EhTable.slotView` does the same on the written table, `EhTable.staged` after
the first slots). Once every slot is read, `ReadM.resolveSlots` fills the
aliases' slots, checks the shared ones and sets the root, and
`ReadM.linkPending` sets the links by number (`ReadM.readEhTable_eq` splits the
reader so).

The conditions of `EhTable.Streamable` make the ids the reader hands out the
table's own: each region sits in the slot of its number and numbers increase
with ids, so the regions are met in id order (`EhTable.staged_staged`, with the
closed form `EhTable.Staged`). Then every check of the resolution passes and it
rebuilds the table: renaming the trees of what it returns gives the table back
(`EhTable.resolveSlots_eq`).
-/

namespace IrStream

/-! ### Trees held by regions -/

namespace EhKind

/-- The trees a kind holds, in the order they are written. -/
def trees : EhKind → List (Option NodeId)
  | catchBlock _ _ t fl => [t, fl]
  | allowedExceptions t _ => [t]
  | throwType ty => [ty]
  | _ => []

/-- Rename the trees a kind holds. -/
def mapTrees (f : NodeId → NodeId) : EhKind → EhKind
  | catchBlock n p t fl => catchBlock n p (t.map f) (fl.map f)
  | allowedExceptions t filter => allowedExceptions (t.map f) filter
  | throwType ty => throwType (ty.map f)
  | k => k

/-- The catch links a kind holds, each with the field it fills, in the order
they are written. -/
def linkFields : EhKind → List (RegionLink × Option RegionId)
  | tryBlock f l => [(.firstCatch, f), (.lastCatch, l)]
  | catchBlock n p _ _ => [(.nextCatch, n), (.prevCatch, p)]
  | _ => []

/-- The kind as the reader first makes it, its region links not yet set. -/
def unlinked : EhKind → EhKind
  | tryBlock _ _ => tryBlock none none
  | catchBlock _ _ t fl => catchBlock none none t fl
  | k => k

@[simp] theorem ordinal_mapTrees (f : NodeId → NodeId) (k : EhKind) :
    (k.mapTrees f).ordinal = k.ordinal := by
  cases k <;> rfl

@[simp] theorem ordinal_unlinked (k : EhKind) : k.unlinked.ordinal = k.ordinal := by
  cases k <;> rfl

theorem mapTrees_congr {f g : NodeId → NodeId} {k : EhKind} (same : ∀ x ∈ k.trees, x.map f = x.map g) :
    k.mapTrees f = k.mapTrees g := by
  cases k <;> simp_all [trees, mapTrees]

end EhKind

namespace EhRegion

/-- The trees a region holds: its label, then its kind's. -/
def trees (r : EhRegion) : List (Option NodeId) := r.label :: r.kind.trees

/-- Rename the trees a region holds. -/
def mapTrees (f : NodeId → NodeId) (r : EhRegion) : EhRegion :=
  { r with label := r.label.map f, kind := r.kind.mapTrees f }

/-- The region as the reader first makes it: no links yet. -/
def unlinked (r : EhRegion) : EhRegion :=
  { r with outer := none, inner := none, nextPeer := none, kind := r.kind.unlinked }

/-- Each link of a region with the field it fills, in the order they are
written. -/
def links (r : EhRegion) : List (RegionLink × Option RegionId) :=
  [(.outer, r.outer), (.inner, r.inner), (.nextPeer, r.nextPeer)] ++ r.kind.linkFields

@[simp] theorem number_mapTrees (f : NodeId → NodeId) (r : EhRegion) :
    (r.mapTrees f).number = r.number := rfl

@[simp] theorem number_unlinked (r : EhRegion) : r.unlinked.number = r.number := rfl

@[simp] theorem aka_unlinked (r : EhRegion) : r.unlinked.aka = r.aka := rfl

theorem mapTrees_congr {f g : NodeId → NodeId} {r : EhRegion} (same : ∀ x ∈ r.trees, x.map f = x.map g) :
    r.mapTrees f = r.mapTrees g := by
  simp only [mapTrees, same r.label List.mem_cons_self,
    EhKind.mapTrees_congr fun x member => same x (List.mem_cons_of_mem _ member)]

end EhRegion

namespace ReadM.EhSlots

/-- The reader's state once `region` is read from slot `slot`, its links noted
in `pending`: the region takes the next id, and its slot and its aliases name
it. -/
def addRegion (acc : EhSlots) (slot : Nat) (region : EhRegion) (pending : PendingLinks) : EhSlots :=
  let id : RegionId := ⟨acc.table.regions.length⟩
  { acc with
    table := { acc.table with regions := acc.table.regions ++ [region],
                              slots := acc.table.slots.set slot (some id) },
    pending,
    aliases := acc.aliases ++ (region.aka.map fun n => (n, id)).toArray }

end ReadM.EhSlots

namespace EhTable

/-- Rename the trees of every region. -/
def mapTrees (f : NodeId → NodeId) (t : EhTable) : EhTable :=
  { t with regions := t.regions.map (EhRegion.mapTrees f) }

theorem mapTrees_congr {f g : NodeId → NodeId} {t : EhTable}
    (same : ∀ r ∈ t.regions, ∀ x ∈ r.trees, x.map f = x.map g) : t.mapTrees f = t.mapTrees g := by
  simp only [mapTrees]
  congr 1
  exact List.map_congr_left fun r member => EhRegion.mapTrees_congr (same r member)

/-- The region an id names, or the placeholder the writer uses for an id
outside the table. -/
def regionOf (eh : EhTable) (id : RegionId) : EhRegion :=
  (eh.region? id).getD { number := 0, kind := .cleanup }

/-- A link as written: the number of its target plus one, zero for none. -/
def linkNumber (eh : EhTable) : Option RegionId → UInt64
  | some id => (eh.regionOf id).number.toUInt64 + 1
  | none => 0

/-- The root as written: its number, or -1 for none. -/
def rootNumber (eh : EhTable) : Int64 :=
  match eh.root with
  | some id => (eh.regionOf id).number.toUInt64.toInt64
  | none => -1

/-- The region a number names among `regions`, the last one holding it. -/
def idOfNumber (regions : List EhRegion) (n : Int) : Option RegionId :=
  (regions.zipIdx.reverse.find? (fun (r, _) => (r.number.toNat : Int) == n)).map fun (_, i) => ⟨i⟩

/-! ### What the stream needs of a table -/

/-- Every slot names a region of the table. -/
def SlotsNamed (t : EhTable) : Prop :=
  ∀ (s : Nat) (id : RegionId), t.slots[s]? = some (some id) → id.val < t.regions.length

/-- Every region sits in the slot of its own number. -/
def Placed (t : EhTable) : Prop :=
  ∀ (i : Nat) (r : EhRegion), t.regions[i]? = some r → t.slots[r.number.toNat]? = some (some ⟨i⟩)

/-- Every number a region lists as an alias is a slot naming it. -/
def Aliased (t : EhTable) : Prop :=
  ∀ (i : Nat) (r : EhRegion), t.regions[i]? = some r → ∀ n ∈ r.aka, t.slots[n.toNat]? = some (some ⟨i⟩)

/-- A property of every region at its index is one of the regions below the
region count. -/
theorem forall_regions_iff {t : EhTable} {P : Nat → EhRegion → Prop} :
    (∀ i < t.regions.length, ∀ r ∈ t.regions[i]?, P i r) ↔ ∀ i r, t.regions[i]? = some r → P i r :=
  ⟨fun each i r found => each i (List.getElem?_eq_some_iff.1 found).1 r found,
    fun each i _ r found => each i r found⟩

instance (t : EhTable) : Decidable t.SlotsNamed :=
  decidable_of_iff (∀ s < t.slots.length, ∀ entry ∈ t.slots[s]?, ∀ id ∈ entry,
      id.val < t.regions.length)
    ⟨fun each s id found => each s (List.getElem?_eq_some_iff.1 found).1 _ found id rfl,
      fun each s _ entry found id named => each s id (by rw [found, named])⟩

instance (t : EhTable) : Decidable t.Placed := decidable_of_iff _ forall_regions_iff

instance (t : EhTable) : Decidable t.Aliased := decidable_of_iff _ forall_regions_iff

/-- What the stream needs of a table: the checks of `verify`, every slot
naming a region of the table, every region in the slot of its number, numbers
increasing with ids, every alias a slot naming its region, alias sets
ascending, and a slot count that fits in 32 bits. -/
structure Streamable (eh : EhTable) : Prop where
  verified : eh.verify = .ok ()
  named : eh.SlotsNamed
  placed : eh.Placed
  increasing : (eh.regions.map (·.number)).Pairwise (· < ·)
  aliased : eh.Aliased
  ascending : ∀ r ∈ eh.regions, r.aka.Pairwise (· < ·)
  fits : eh.slots.length < UInt32.size

/-! ### The slots read, on the written table -/

/-- The pending links the reader notes for region `r` read under id `id`:
each link that is set, with the number of its target. -/
def pendingLinks (eh : EhTable) (id : RegionId) (r : EhRegion) : List (RegionId × RegionLink × Int) :=
  r.links.filterMap fun (link, target) => target.map fun t => (id, link, ((eh.regionOf t).number.toNat : Int))

/-- What reading one slot record does to the reader's state, told on the
written table's own trees: a region stored in the slot of its number is
appended with the next id, a slot naming another number is noted as shared. -/
def slotView (eh : EhTable) (v : ReadM.EhSlots) : Option RegionId × Nat → ReadM.EhSlots
  | (none, _) => v
  | (some id, slot) =>
    let r := eh.regionOf id
    if r.number.toNat = slot then
      v.addRegion slot r.unlinked (v.pending ++ (eh.pendingLinks ⟨v.table.regions.length⟩ r).toArray)
    else { v with shared := v.shared.push (slot, r.number) }

/-- The reader's state before the slots: a table of holes. -/
def start (eh : EhTable) : ReadM.EhSlots :=
  { table := { lastRegionNumber := eh.lastRegionNumber, slots := List.replicate eh.slots.length none } }

/-- The reader's state after the first `s` slots. -/
def staged (eh : EhTable) (s : Nat) : ReadM.EhSlots :=
  (eh.slots.take s).zipIdx.foldl eh.slotView eh.start

theorem staged_succ (eh : EhTable) {s : Nat} (inside : s < eh.slots.length) :
    eh.staged (s + 1) = eh.slotView (eh.staged s) (eh.slots[s], s) := by
  have length : (eh.slots.take s).length = s := List.length_take_of_le inside.le
  rw [staged, List.take_add_one, List.getElem?_eq_getElem inside, Option.toList_some,
    List.zipIdx_append, List.foldl_append, length, Nat.zero_add]
  rfl

/-- The region stored in slot `j` as its own number's, if any. -/
def homeAt (eh : EhTable) (j : Nat) : Option RegionId :=
  match eh.slots[j]? with
  | some (some id) => if (eh.regionOf id).number.toNat = j then some id else none
  | _ => none

/-- How many regions have a number below `s`. -/
def homeCount (eh : EhTable) (s : Nat) : Nat :=
  (eh.regions.map (·.number.toNat)).countP (· < s)

/-- The regions and the links and aliases noted for them, after the regions
with the first `k` ids are read. -/
def readLinks (eh : EhTable) (k : Nat) : List (RegionId × RegionLink × Int) :=
  (eh.regions.take k).zipIdx.flatMap fun (r, i) => eh.pendingLinks ⟨i⟩ r

def readAliases (eh : EhTable) (k : Nat) : List (UInt32 × RegionId) :=
  (eh.regions.take k).zipIdx.flatMap fun (r, i) => r.aka.map fun n => (n, ⟨i⟩)

/-- The reader's state after the first `s` slots, in closed form: the regions
with a number below `s`, unlinked, their home slots, their links and aliases,
and shared slots that name a region of the table by its number. -/
structure Staged (eh : EhTable) (s : Nat) (v : ReadM.EhSlots) : Prop where
  regions : v.table.regions = (eh.regions.take (eh.homeCount s)).map EhRegion.unlinked
  slots : v.table.slots = (List.range eh.slots.length).map fun j => if j < s then eh.homeAt j else none
  root : v.table.root = none
  last : v.table.lastRegionNumber = eh.lastRegionNumber
  pending : v.pending.toList = eh.readLinks (eh.homeCount s)
  aliases : v.aliases.toList = eh.readAliases (eh.homeCount s)
  shared : ∀ p ∈ v.shared.toList, ∃ id, eh.slots[p.1]? = some (some id) ∧ (eh.regionOf id).number = p.2

/-! ### Regions met in id order -/

/-- In a strictly increasing list, the entries below the `i`-th are the `i`
entries before it. -/
theorem countP_lt_getElem : ∀ {l : List Nat}, l.Pairwise (· < ·) → ∀ {i : Nat} (h : i < l.length),
    l.countP (· < l[i]) = i
  | [], _, _, h => absurd h (Nat.not_lt_zero _)
  | a :: l, sorted, 0, _ => by
    have above := (List.pairwise_cons.1 sorted).1
    have none : l.countP (· < a) = 0 :=
      List.countP_eq_zero.2 fun x member => by simpa using (above x member).le
    simp [none]
  | a :: l, sorted, i + 1, h => by
    obtain ⟨above, rest⟩ := List.pairwise_cons.1 sorted
    have inside : i < l.length := by simpa using h
    have lower : a < l[i] := above _ (List.getElem_mem inside)
    simp [countP_lt_getElem rest inside, lower]

/-- In a strictly increasing list, the entries up to the `i`-th are the first
`i + 1`. -/
theorem countP_le_getElem : ∀ {l : List Nat}, l.Pairwise (· < ·) → ∀ {i : Nat} (h : i < l.length),
    l.countP (· ≤ l[i]) = i + 1
  | [], _, _, h => absurd h (Nat.not_lt_zero _)
  | a :: l, sorted, 0, _ => by
    have above := (List.pairwise_cons.1 sorted).1
    have none : l.countP (· ≤ a) = 0 :=
      List.countP_eq_zero.2 fun x member => by simpa using above x member
    simp [none]
  | a :: l, sorted, i + 1, h => by
    obtain ⟨above, rest⟩ := List.pairwise_cons.1 sorted
    have inside : i < l.length := by simpa using h
    have lower : a ≤ l[i] := (above _ (List.getElem_mem inside)).le
    simp [countP_le_getElem rest inside, lower]

theorem regionOf_eq {eh : EhTable} {i : Nat} {r : EhRegion} (found : eh.regions[i]? = some r) :
    eh.regionOf ⟨i⟩ = r := by
  simp [regionOf, region?, found]

/-- Reading the next region in id order adds its part at the end. -/
theorem flatMap_zipIdx_take_succ {eh : EhTable} {β : Type} (F : EhRegion × Nat → List β) {k : Nat}
    {r : EhRegion} (found : eh.regions[k]? = some r) :
    (eh.regions.take (k + 1)).zipIdx.flatMap F = (eh.regions.take k).zipIdx.flatMap F ++ F (r, k) := by
  have length : (eh.regions.take k).length = k :=
    List.length_take_of_le (List.getElem?_eq_some_iff.1 found).1.le
  rw [List.take_add_one, found, Option.toList_some, List.zipIdx_append, List.flatMap_append, length]
  simp

theorem readLinks_succ {eh : EhTable} {k : Nat} {r : EhRegion} (found : eh.regions[k]? = some r) :
    eh.readLinks (k + 1) = eh.readLinks k ++ eh.pendingLinks ⟨k⟩ r :=
  flatMap_zipIdx_take_succ _ found

theorem readAliases_succ {eh : EhTable} {k : Nat} {r : EhRegion} (found : eh.regions[k]? = some r) :
    eh.readAliases (k + 1) = eh.readAliases k ++ r.aka.map fun n => (n, ⟨k⟩) :=
  flatMap_zipIdx_take_succ _ found

/-- The home slots up to `s`, with the home at `s` set. -/
theorem set_homeSlots {eh : EhTable} {n s : Nat} {id : RegionId} (home : eh.homeAt s = some id) :
    ((List.range n).map fun j => if j < s then eh.homeAt j else none).set s (some id) =
      (List.range n).map fun j => if j < s + 1 then eh.homeAt j else none := by
  apply List.ext_getElem?
  intro j
  simp only [List.getElem?_set, List.getElem?_map, List.length_map, List.length_range]
  by_cases same : s = j
  · subst same
    by_cases inside : s < n <;> simp [inside, home]
  · by_cases inside : j < n
    · have lower : j ≤ s ↔ j < s := by omega
      simp [same, inside, lower]
    · simp [same, inside]

/-- Below slot 0 nothing is read. -/
theorem homeSlots_zero (eh : EhTable) (n : Nat) :
    ((List.range n).map fun j => if j < 0 then eh.homeAt j else none) = List.replicate n none := by
  simp [List.map_const']

section Numbers

variable {eh : EhTable} (streams : eh.Streamable)
include streams

theorem numbers_sorted : (eh.regions.map (·.number.toNat)).Pairwise (· < ·) := by
  have sorted := streams.increasing
  rw [List.pairwise_map] at sorted ⊢
  exact sorted.imp fun lower => UInt32.lt_iff_toNat_lt.1 lower

/-- The region whose home is slot `j` is the region of the table numbered `j`. -/
theorem homeAt_eq_some {j : Nat} {id : RegionId} :
    eh.homeAt j = some id ↔ ∃ r, eh.regions[id.val]? = some r ∧ r.number.toNat = j := by
  constructor
  · intro home
    unfold homeAt at home
    split at home
    · next id' slot =>
      split_ifs at home with number
      cases home
      have below := streams.named j id slot
      exact ⟨eh.regions[id.val], List.getElem?_eq_getElem below,
        by rwa [← regionOf_eq (List.getElem?_eq_getElem below)]⟩
    · cases home
  · rintro ⟨r, found, rfl⟩
    simp [homeAt, streams.placed id.val r found, regionOf_eq found]

theorem homeCount_of_home {s : Nat} {id : RegionId} (home : eh.homeAt s = some id) :
    eh.homeCount s = id.val ∧ eh.homeCount (s + 1) = id.val + 1 := by
  obtain ⟨r, found, number⟩ := (homeAt_eq_some streams).1 home
  have sorted := numbers_sorted streams
  obtain ⟨below, entry⟩ := List.getElem?_eq_some_iff.1 found
  have inside : id.val < (eh.regions.map (·.number.toNat)).length := by simpa using below
  have numbered : (eh.regions.map (·.number.toNat))[id.val] = s := by simp [entry, number]
  have succ : (fun n => decide (n < s + 1)) = fun n => decide (n ≤ s) := by
    funext n
    simp
  refine ⟨?_, ?_⟩
  · rw [homeCount, ← numbered]
    exact countP_lt_getElem sorted inside
  · rw [homeCount, succ, ← numbered]
    exact countP_le_getElem sorted inside

theorem homeCount_of_none {s : Nat} (none : eh.homeAt s = none) :
    eh.homeCount (s + 1) = eh.homeCount s := by
  unfold homeCount
  apply List.countP_congr
  intro x member
  obtain ⟨r, mem, rfl⟩ := List.mem_map.1 member
  -- no region is numbered `s`, or its slot would be its home
  have other : r.number.toNat ≠ s := by
    intro same
    obtain ⟨i, found⟩ := List.mem_iff_getElem?.1 mem
    have home : eh.homeAt s = some ⟨i⟩ := (homeAt_eq_some streams).2 ⟨r, found, same⟩
    rw [none] at home
    cases home
  simp only [decide_eq_true_eq]
  omega

/-- Every region's number is below the slot count. -/
theorem homeCount_length : eh.homeCount eh.slots.length = eh.regions.length := by
  unfold homeCount
  rw [List.countP_eq_length.2, List.length_map]
  intro x member
  obtain ⟨r, mem, rfl⟩ := List.mem_map.1 member
  obtain ⟨i, found⟩ := List.mem_iff_getElem?.1 mem
  simpa using (List.getElem?_eq_some_iff.1 (streams.placed i r found)).1

/-- A slot record read: a region in the slot of its number is the next region
by id, anything else leaves the regions as they were. -/
theorem Staged.step {s : Nat} {v : ReadM.EhSlots} (staged : eh.Staged s v) (inside : s < eh.slots.length) :
    eh.Staged (s + 1) (eh.slotView v (eh.slots[s], s)) := by
  have slot := List.getElem?_eq_getElem inside
  -- the home slots up to `s + 1`, when slot `s` is no region's home
  have noHome : eh.homeAt s = none →
      ((List.range eh.slots.length).map fun j => if j < s + 1 then eh.homeAt j else none) =
        v.table.slots := by
    intro none
    rw [staged.slots]
    apply List.map_congr_left
    intro j _
    by_cases same : j = s
    · subst same
      simp [none]
    · have lower : j < s + 1 ↔ j < s := by omega
      simp only [lower]
  cases entry : eh.slots[s] with
  | none =>
    have none : eh.homeAt s = none := by simp [homeAt, slot, entry]
    have count := homeCount_of_none streams none
    exact ⟨count ▸ staged.regions, (noHome none).symm, staged.root, staged.last,
      count ▸ staged.pending, count ▸ staged.aliases, staged.shared⟩
  | some id =>
    by_cases number : (eh.regionOf id).number.toNat = s
    · have home : eh.homeAt s = some id := by simp [homeAt, slot, entry, number]
      obtain ⟨r, found, -⟩ := (homeAt_eq_some streams).1 home
      obtain ⟨count, count'⟩ := homeCount_of_home streams home
      have same : eh.regionOf id = r := regionOf_eq found
      have length : v.table.regions.length = id.val := by
        rw [staged.regions, List.length_map, List.length_take, count]
        exact min_eq_left (List.getElem?_eq_some_iff.1 found).1.le
      have number' : r.number.toNat = s := same ▸ number
      simp only [slotView, ReadM.EhSlots.addRegion, EhRegion.aka_unlinked, same, number', if_true, length]
      refine ⟨?_, ?_, staged.root, staged.last, ?_, ?_, staged.shared⟩
      · rw [staged.regions, count, count', List.take_add_one, found]
        simp
      · rw [staged.slots]
        exact set_homeSlots home
      · rw [Array.toList_append, staged.pending, count, count', readLinks_succ found]
      · rw [Array.toList_append, staged.aliases, count, count', readAliases_succ found]
    · have none : eh.homeAt s = none := by simp [homeAt, slot, entry, number]
      have count := homeCount_of_none streams none
      simp only [slotView, number, if_false]
      refine ⟨count ▸ staged.regions, (noHome none).symm, staged.root, staged.last,
        count ▸ staged.pending, count ▸ staged.aliases, ?_⟩
      intro p member
      rcases (by simpa using member : p ∈ v.shared ∨ p = (s, (eh.regionOf id).number)) with old | rfl
      · exact staged.shared p (by simpa using old)
      · exact ⟨id, entry ▸ slot, rfl⟩

/-- After the first `s` slots the reader's state is the closed form. -/
theorem staged_staged : ∀ s ≤ eh.slots.length, eh.Staged s (eh.staged s)
  | 0, _ => by
    refine ⟨by simp [staged, start, homeCount], ?_, rfl, rfl, by simp [staged, start, readLinks, homeCount],
      by simp [staged, start, readAliases, homeCount], by simp [staged, start]⟩
    rw [homeSlots_zero]
    rfl
  | s + 1, inside => by
    rw [staged_succ eh inside]
    exact (staged_staged s (Nat.le_of_succ_le inside)).step streams inside

/-- After every slot the reader holds every region, unlinked, with its home
slot, and every link and alias noted. -/
theorem Staged.complete {v : ReadM.EhSlots} (staged : eh.Staged eh.slots.length v) :
    v.table.regions = eh.regions.map EhRegion.unlinked ∧
      v.table.slots = (List.range eh.slots.length).map eh.homeAt ∧
      v.pending.toList = eh.readLinks eh.regions.length ∧
      v.aliases.toList = eh.readAliases eh.regions.length := by
  have count := homeCount_length streams
  refine ⟨by rw [staged.regions, count, List.take_length], ?_, count ▸ staged.pending, count ▸ staged.aliases⟩
  rw [staged.slots]
  apply List.map_congr_left
  intro j member
  simp [List.mem_range.1 member]

end Numbers

/-! ### What `verify` says -/

theorem verify_eq_ok {t : EhTable} (verified : t.verify = .ok ()) :
    t.firstDangling = none ∧ t.inRange t.root = true ∧ t.firstMismatch = none := by
  unfold verify at verified
  cases d : t.firstDangling <;> cases r : t.inRange t.root <;> cases m : t.firstMismatch <;>
    simp [d, r, m, bind, Except.bind, throw, throwThe, MonadExceptOf.throw] at verified
  exact ⟨rfl, rfl, rfl⟩

/-- `verify` fails with the slot check's fault only once the links and the
root are inside the table. -/
theorem verify_eq_slotFault {t : EhTable} {fault : VerifyError}
    (stopped : t.verify = .error fault) (slotFault : ∀ i, fault ≠ .ehDanglingLink i) :
    t.firstMismatch = some fault := by
  unfold verify at stopped
  cases d : t.firstDangling <;> cases r : t.inRange t.root <;> cases m : t.firstMismatch <;>
    simp [d, r, m, bind, Except.bind, throw, throwThe, MonadExceptOf.throw, pure,
      Except.pure] at stopped
  -- the link and root checks fail with a dangling link, which the slot check never reports
  all_goals first
    | exact absurd stopped.symm (slotFault _)
    | exact congrArg some stopped

/-- The targets of a region's links, as `verify` lists them. -/
theorem map_snd_links (r : EhRegion) :
    r.links.map Prod.snd = [r.outer, r.inner, r.nextPeer] ++ r.kind.links := by
  rcases r with ⟨_, _, _, _, _, _, _, kind⟩
  cases kind <;> rfl

/-- No region has a link outside the table. -/
theorem link_lt {t : EhTable} (none : t.firstDangling = none) {i : Nat} {r : EhRegion}
    (found : t.regions[i]? = some r) {link : RegionLink} {target : RegionId}
    (member : (link, some target) ∈ r.links) : target.val < t.regions.length := by
  have inside : i < t.regions.length := (List.getElem?_eq_some_iff.1 found).1
  have clean := List.find?_eq_none.1 none i (List.mem_range.2 inside)
  simp only [found, Bool.not_eq_eq_eq_not, Bool.not_true, Bool.not_eq_false, List.all_eq_true] at clean
  have listed : some target ∈ [r.outer, r.inner, r.nextPeer] ++ r.kind.links := by
    rw [← map_snd_links]
    exact List.mem_map.2 ⟨_, member, rfl⟩
  simpa [inRange] using clean _ listed

/-- Every slot names a region that has the slot's number or lists it as an
alias. -/
theorem number_or_aka {t : EhTable} (none : t.firstMismatch = none) (fits : t.slots.length < UInt32.size)
    {s : Nat} {id : RegionId} {r : EhRegion} (slot : t.slots[s]? = some (some id))
    (found : t.regions[id.val]? = some r) : r.number.toNat = s ∨ s.toUInt32 ∈ r.aka := by
  have inside : s < t.slots.length := (List.getElem?_eq_some_iff.1 slot).1
  rw [firstMismatch, List.head?_eq_none_iff, List.filterMap_eq_nil_iff] at none
  have clean := none s (List.mem_range.2 inside)
  have named : t.region? id = some r := found
  simp only [slot, Option.join_some, named] at clean
  by_cases number : r.number = s.toUInt32
  · left
    rw [number, Nat.toUInt32_eq, UInt32.toNat_ofNat_of_lt' (by omega)]
  · right
    by_contra absent
    simp [number, absent] at clean

/-- A table that passes the slot check has every slot naming a region. -/
theorem slotsNamed_of_firstMismatch {t : EhTable} (none : t.firstMismatch = none) : t.SlotsNamed := by
  intro s id slot
  have inside : s < t.slots.length := (List.getElem?_eq_some_iff.1 slot).1
  rw [firstMismatch, List.head?_eq_none_iff, List.filterMap_eq_nil_iff] at none
  have clean := none s (List.mem_range.2 inside)
  simp only [slot, Option.join_some] at clean
  -- a missing region would have been reported at this slot
  cases lookup : t.region? id with
  | none => simp [lookup] at clean
  | some r => exact (List.getElem?_eq_some_iff.1 lookup).1

/-- The slot check stops only at a slot naming a region past the end of the
table: the region id it reports is that slot's, and the length the table's. -/
theorem firstMismatch_outside {t : EhTable} {slot : UInt32} {index len : Nat}
    (found : t.firstMismatch = some (.ehSlotOutOfRange slot index len)) :
    ∃ k : Nat, k.toUInt32 = slot ∧ t.slots[k]? = some (some ⟨index⟩) ∧
      len = t.regions.length ∧ t.regions.length ≤ index := by
  rw [firstMismatch] at found
  obtain ⟨k, -, picked⟩ := List.mem_filterMap.1 (List.mem_of_mem_head? found)
  cases entry : t.slots[k]? with
  | none => simp [entry] at picked
  | some e =>
    cases e with
    | none => simp [entry] at picked
    | some id =>
      cases lookup : t.region? id with
      | none =>
        simp only [entry, Option.join_some, lookup, Option.some.injEq,
          VerifyError.ehSlotOutOfRange.injEq] at picked
        obtain ⟨rfl, rfl, rfl⟩ := picked
        refine ⟨k, rfl, entry, rfl, ?_⟩
        simpa [region?] using lookup
      | some r =>
        -- a region that is there is at most a mismatch
        simp only [entry, Option.join_some, lookup] at picked
        split at picked <;> simp at picked

/-- Where `verify` stops on its unchecked lookup, a slot names a region past
the end of the table. -/
theorem verify_slotOutOfRange {t : EhTable} {slot : UInt32} {index len : Nat}
    (stopped : t.verify = .error (.ehSlotOutOfRange slot index len)) :
    ∃ k : Nat, k.toUInt32 = slot ∧ t.slots[k]? = some (some ⟨index⟩) ∧ t.regions.length ≤ index := by
  have found := verify_eq_slotFault stopped (fun _ wrong => by cases wrong)
  obtain ⟨k, number, slotted, -, past⟩ := firstMismatch_outside found
  exact ⟨k, number, slotted, past⟩

/-! ### Numbers back to ids -/

theorem idOfNumber_map {g : EhRegion → EhRegion} (keeps : ∀ r, (g r).number = r.number)
    (regions : List EhRegion) : idOfNumber (regions.map g) = idOfNumber regions := by
  funext n
  simp only [idOfNumber, List.zipIdx_map, ← List.map_reverse, List.find?_map, Option.map_map]
  congr 1
  · congr 1
    funext x
    simp [keeps]

/-- With distinct numbers, a region's number names it. -/
theorem idOfNumber_eq {regions : List EhRegion} (sorted : (regions.map (·.number.toNat)).Pairwise (· < ·))
    {i : Nat} {r : EhRegion} (found : regions[i]? = some r) : idOfNumber regions r.number.toNat = some ⟨i⟩ := by
  have some : ((regions.zipIdx.reverse.find? fun (x : EhRegion × Nat) =>
      (x.1.number.toNat : Int) == r.number.toNat)).isSome := by
    refine List.find?_isSome.2 ⟨(r, i), ?_, by simp⟩
    exact List.mem_reverse.2 (List.mem_zipIdx_iff_getElem?.2 found)
  obtain ⟨⟨r', j⟩, first⟩ := Option.isSome_iff_exists.1 some
  have member := List.mem_zipIdx_iff_getElem?.1 (List.mem_reverse.1 (List.mem_of_find?_eq_some first))
  have same : r'.number.toNat = r.number.toNat := by simpa using List.find?_some first
  have distinct := List.Pairwise.nodup sorted
  obtain ⟨belowJ, atJ⟩ := List.getElem?_eq_some_iff.1 member
  obtain ⟨belowI, atI⟩ := List.getElem?_eq_some_iff.1 found
  have index : j = i := by
    have belowJ' : j < (regions.map (·.number.toNat)).length := by simpa using belowJ
    have belowI' : i < (regions.map (·.number.toNat)).length := by simpa using belowI
    have equal : (regions.map (·.number.toNat))[j] = (regions.map (·.number.toNat))[i] := by
      simp [atJ, atI, same]
    exact (List.Nodup.getElem_inj_iff distinct).1 equal
  subst index
  simp [idOfNumber, first]

end EhTable

/-! ### Links set by number -/

namespace RegionLink

/-- Whether a region of kind `k` carries the link. -/
def carried (link : RegionLink) (k : EhKind) : Bool :=
  match link with
  | outer | inner | nextPeer => true
  | firstCatch | lastCatch => k.ordinal == 1
  | nextCatch | prevCatch => k.ordinal == 2

theorem carried_congr {k k' : EhKind} (same : k.ordinal = k'.ordinal) (link : RegionLink) :
    link.carried k = link.carried k' := by
  cases link <;> simp [carried, same]

end RegionLink

namespace EhRegion

/-- Set one link of a region, where it is set and the region's kind carries it. -/
def linkStep (u : EhRegion) : RegionLink × Option RegionId → EhRegion
  | (link, some target) => (u.setLink? link target).getD u
  | (_, none) => u

/-- Setting the links of a region on its unlinked form gives it back. -/
theorem foldl_linkStep_unlinked (r : EhRegion) : r.links.foldl linkStep r.unlinked = r := by
  rcases r with ⟨number, may, aka, outer, inner, next, label, kind⟩
  cases kind with
  | tryBlock f l => cases outer <;> cases inner <;> cases next <;> cases f <;> cases l <;> rfl
  | catchBlock n p t fl => cases outer <;> cases inner <;> cases next <;> cases n <;> cases p <;> rfl
  | _ => cases outer <;> cases inner <;> cases next <;> rfl

theorem setLink?_mapTrees (f : NodeId → NodeId) (r : EhRegion) (link : RegionLink) (target : RegionId) :
    (r.mapTrees f).setLink? link target = (r.setLink? link target).map (mapTrees f) := by
  rcases r with ⟨_, _, _, _, _, _, _, kind⟩
  cases link <;> cases kind <;> rfl

theorem isSome_setLink? (r : EhRegion) (link : RegionLink) (target : RegionId) :
    (r.setLink? link target).isSome = link.carried r.kind := by
  rcases r with ⟨_, _, _, _, _, _, _, kind⟩
  cases link <;> cases kind <;> rfl

theorem ordinal_setLink? {r r' : EhRegion} {link : RegionLink} {target : RegionId}
    (set : r.setLink? link target = some r') : r'.kind.ordinal = r.kind.ordinal := by
  rcases r with ⟨_, _, _, _, _, _, _, kind⟩
  cases link <;> cases kind <;> simp [setLink?] at set <;> subst set <;> rfl

theorem trees_setLink? {r r' : EhRegion} {link : RegionLink} {target : RegionId}
    (set : r.setLink? link target = some r') : r'.trees = r.trees := by
  rcases r with ⟨_, _, _, _, _, _, _, kind⟩
  cases link <;> cases kind <;> simp [setLink?] at set <;> subst set <;> rfl

/-- A region's kind carries each of its links. -/
theorem carried_of_mem_links {r : EhRegion} {link : RegionLink} {target : Option RegionId}
    (member : (link, target) ∈ r.links) : link.carried r.kind = true := by
  rcases r with ⟨_, _, _, _, _, _, _, kind⟩
  cases kind <;> cases link <;> simp [links, EhKind.linkFields, RegionLink.carried, EhKind.ordinal] at member ⊢

end EhRegion

namespace EhTable

/-- One pending link resolved: the target named by the number, set on the
region if its kind carries the link. -/
def applyLink (lookup : Int → Option RegionId) (t : EhTable) : RegionId × RegionLink × Int → EhTable
  | (id, link, raw) =>
    match lookup raw with
    | some target =>
      match (t.region? id).bind (·.setLink? link target) with
      | some r => t.modifyRegion id fun _ => r
      | none => t
    | none => t

theorem region?_mapTrees (f : NodeId → NodeId) (t : EhTable) (id : RegionId) :
    (t.mapTrees f).region? id = (t.region? id).map (EhRegion.mapTrees f) := by
  simp [region?, mapTrees]

theorem mapTrees_modifyRegion (f : NodeId → NodeId) (t : EhTable) (id : RegionId) (r : EhRegion) :
    (t.modifyRegion id fun _ => r).mapTrees f = (t.mapTrees f).modifyRegion id fun _ => r.mapTrees f := by
  simp only [mapTrees, modifyRegion, EhTable.mk.injEq, and_true]
  apply List.ext_getElem?
  intro j
  simp only [List.getElem?_map, List.getElem?_modify]
  cases t.regions[j]? with
  | none => rfl
  | some u => by_cases same : id.val = j <;> simp [same]

theorem modifyRegion_self {t : EhTable} {k : Nat} {u : EhRegion} (found : t.regions[k]? = some u) :
    (t.modifyRegion ⟨k⟩ fun _ => u) = t := by
  simp only [modifyRegion]
  congr 1
  apply List.ext_getElem?
  intro j
  rw [List.getElem?_modify]
  by_cases same : k = j
  · subst same
    simp [found]
  · cases t.regions[j]? <;> simp [same]

/-- Renaming trees and setting links do not interfere. -/
theorem mapTrees_applyLink (f : NodeId → NodeId) (lookup : Int → Option RegionId) (t : EhTable)
    (x : RegionId × RegionLink × Int) :
    (applyLink lookup t x).mapTrees f = applyLink lookup (t.mapTrees f) x := by
  rcases x with ⟨id, link, raw⟩
  simp only [applyLink]
  cases lookup raw with
  | none => rfl
  | some target =>
    simp only [region?_mapTrees]
    cases t.region? id with
    | none => rfl
    | some u =>
      simp only [Option.map_some, Option.bind_some, EhRegion.setLink?_mapTrees]
      cases u.setLink? link target with
      | none => rfl
      | some r => exact mapTrees_modifyRegion f t id r

/-- A pending link whose number names its target sets it on the region. -/
theorem applyLink_of_lookup {lookup : Int → Option RegionId} {t : EhTable} {k : Nat} {u : EhRegion}
    (found : t.regions[k]? = some u) {link : RegionLink} {raw : Int} {target : RegionId}
    (named : lookup raw = some target) :
    applyLink lookup t (⟨k⟩, link, raw) = t.modifyRegion ⟨k⟩ fun _ => u.linkStep (link, some target) := by
  have slot : t.region? ⟨k⟩ = some u := found
  simp only [applyLink, named, slot, Option.bind_some, EhRegion.linkStep]
  cases u.setLink? link target with
  | some r => rfl
  | none => exact (modifyRegion_self found).symm

/-- The pending links of one region, resolved: its links set on it. -/
theorem foldl_applyLink_pendingLinks {eh : EhTable} {lookup : Int → Option RegionId} {k : Nat}
    {r : EhRegion} (named : ∀ link target, (link, some target) ∈ r.links →
      lookup (eh.regionOf target).number.toNat = some target) :
    ∀ (t : EhTable) (u : EhRegion), t.regions[k]? = some u →
      (eh.pendingLinks ⟨k⟩ r).foldl (applyLink lookup) t =
        t.modifyRegion ⟨k⟩ fun _ => r.links.foldl EhRegion.linkStep u := by
  -- induction over the links, each one setting the region's slot afresh
  suffices each : ∀ ls ⊆ r.links, ∀ (t : EhTable) (u : EhRegion), t.regions[k]? = some u →
      (ls.filterMap fun (link, target) => target.map fun t =>
          ((⟨k⟩ : RegionId), link, ((eh.regionOf t).number.toNat : Int))).foldl (applyLink lookup) t =
        t.modifyRegion ⟨k⟩ fun _ => ls.foldl EhRegion.linkStep u from each r.links (List.Subset.refl _)
  intro ls
  induction ls with
  | nil =>
    intro _ t u found
    exact (modifyRegion_self found).symm
  | cons l ls ih =>
    intro within t u found
    obtain ⟨link, target⟩ := l
    have rest := ih (fun x member => within (List.mem_cons_of_mem _ member))
    cases target with
    | none => exact rest t u found
    | some target =>
      have lookedUp := named link target (within List.mem_cons_self)
      have found' : (t.modifyRegion ⟨k⟩ fun _ => u.linkStep (link, some target)).regions[k]? =
          some (u.linkStep (link, some target)) := by
        simp [modifyRegion, found]
      simp only [List.filterMap_cons, Option.map_some, List.foldl_cons]
      rw [applyLink_of_lookup found lookedUp, rest _ _ found']
      simp only [modifyRegion, List.modify_modify_eq]
      rfl

/-- The regions with the first `k` ids linked, the others still unlinked; the
next region's links set. -/
theorem modifyRegion_linked (regions : List EhRegion) {k : Nat} (inside : k < regions.length)
    (t : EhTable) :
    ({ t with regions := regions.take k ++ (regions.drop k).map EhRegion.unlinked }.modifyRegion ⟨k⟩
      fun _ => regions[k]) =
      { t with regions := regions.take (k + 1) ++ (regions.drop (k + 1)).map EhRegion.unlinked } := by
  have length : (regions.take k).length = k := List.length_take_of_le inside.le
  simp only [modifyRegion, List.modify_eq_set, EhTable.mk.injEq, and_true]
  rw [List.set_append_right _ _ length.le, length, Nat.sub_self, List.drop_eq_getElem_cons inside,
    List.map_cons, List.set_cons_zero, List.take_add_one, List.getElem?_eq_getElem inside,
    Option.toList_some, List.append_assoc, List.singleton_append]

/-- Replacing a region by one alike under `g` keeps the regions alike under `g`. -/
theorem map_modifyRegion {β : Type} (g : EhRegion → β) {t : EhTable} {id : RegionId} {w r : EhRegion}
    (found : t.region? id = some w) (same : g r = g w) :
    (t.modifyRegion id fun _ => r).regions.map g = t.regions.map g := by
  apply List.ext_getElem?
  intro j
  simp only [modifyRegion, List.getElem?_map, List.getElem?_modify]
  by_cases at_id : id.val = j
  · subst at_id
    simp only [region?] at found
    simp [found, same]
  · simp [at_id]

/-- Setting a link keeps the trees of every region. -/
theorem trees_applyLink (lookup : Int → Option RegionId) (t : EhTable) (x : RegionId × RegionLink × Int) :
    (applyLink lookup t x).regions.map EhRegion.trees = t.regions.map EhRegion.trees := by
  rcases x with ⟨id, link, raw⟩
  simp only [applyLink]
  cases lookup raw with
  | none => rfl
  | some target =>
    cases found : t.region? id with
    | none => rfl
    | some u =>
      simp only [Option.bind_some]
      cases set : u.setLink? link target with
      | none => rfl
      | some r => exact map_modifyRegion EhRegion.trees found (EhRegion.trees_setLink? set)

theorem trees_foldl_applyLink (lookup : Int → Option RegionId) :
    ∀ (l : List (RegionId × RegionLink × Int)) (t : EhTable),
      (l.foldl (applyLink lookup) t).regions.map EhRegion.trees = t.regions.map EhRegion.trees
  | [], _ => rfl
  | x :: l, t => by
    rw [List.foldl_cons, trees_foldl_applyLink lookup l, trees_applyLink]

/-- A noted link is one a region of the table carries, written with its
target's number. -/
theorem mem_readLinks {eh : EhTable} {x : RegionId × RegionLink × Int} (member : x ∈ eh.readLinks eh.regions.length) :
    ∃ r target, eh.regions[x.1.val]? = some r ∧ (x.2.1, some target) ∈ r.links ∧
      x.2.2 = (eh.regionOf target).number.toNat := by
  obtain ⟨id, link, raw⟩ := x
  simp only [readLinks, List.take_length, pendingLinks, List.mem_flatMap, List.mem_filterMap,
    Option.map_eq_some_iff] at member
  obtain ⟨⟨r, i⟩, listed, ⟨link', target⟩, carried, t, rfl, same⟩ := member
  simp only [Prod.mk.injEq] at same
  obtain ⟨rfl, rfl, rfl⟩ := same
  exact ⟨r, t, List.mem_zipIdx_iff_getElem?.1 listed, carried, rfl⟩

theorem mapTrees_foldl_applyLink (f : NodeId → NodeId) (lookup : Int → Option RegionId) :
    ∀ (l : List (RegionId × RegionLink × Int)) (t : EhTable),
      (l.foldl (applyLink lookup) t).mapTrees f = l.foldl (applyLink lookup) (t.mapTrees f)
  | [], _ => rfl
  | x :: l, t => by
    rw [List.foldl_cons, mapTrees_foldl_applyLink f lookup l, mapTrees_applyLink, List.foldl_cons]

section Linked

variable {eh : EhTable} (streams : eh.Streamable)
include streams

/-- A region's number names it. -/
theorem idOfNumber_regionOf {id : RegionId} (inside : id.val < eh.regions.length) :
    idOfNumber eh.regions (eh.regionOf id).number.toNat = some id := by
  have found := List.getElem?_eq_getElem inside
  rw [regionOf_eq found]
  exact idOfNumber_eq (numbers_sorted streams) found

/-- The number a link is written with names its target. -/
theorem idOfNumber_target {i : Nat} {r : EhRegion} (found : eh.regions[i]? = some r)
    {link : RegionLink} {target : RegionId} (member : (link, some target) ∈ r.links) :
    idOfNumber eh.regions (eh.regionOf target).number.toNat = some target :=
  idOfNumber_regionOf streams (link_lt (verify_eq_ok streams.verified).1 found member)

/-- The root as written is not -1, and its number names the root. -/
theorem idOfNumber_rootNumber {id : RegionId} (root : eh.root = some id) :
    (eh.rootNumber != -1) = true ∧ idOfNumber eh.regions eh.rootNumber.toInt = some id := by
  have inside : id.val < eh.regions.length := by
    simpa [inRange, root] using (verify_eq_ok streams.verified).2.1
  have value : eh.rootNumber.toInt = (eh.regionOf id).number.toNat := by
    simp only [rootNumber, root]
    exact Leb128.toInt_toInt64 _
  refine ⟨?_, value ▸ idOfNumber_regionOf streams inside⟩
  rw [bne_iff_ne]
  intro minus
  have negative : (-1 : Int64).toInt = -1 := by decide
  rw [minus, negative] at value
  omega

/-- Resolving the pending links of the first `k` regions links them. -/
theorem foldl_applyLink_readLinks {t : EhTable} (start : t.regions = eh.regions.map EhRegion.unlinked) :
    ∀ k ≤ eh.regions.length, (eh.readLinks k).foldl (applyLink (idOfNumber eh.regions)) t =
      { t with regions := eh.regions.take k ++ (eh.regions.drop k).map EhRegion.unlinked }
  | 0, _ => by simp [readLinks, ← start]
  | k + 1, inside => by
    have below : k < eh.regions.length := inside
    have found := List.getElem?_eq_getElem below
    have current : ({ t with regions := eh.regions.take k ++ (eh.regions.drop k).map EhRegion.unlinked }).regions[k]? =
        some eh.regions[k].unlinked := by
      have length : (eh.regions.take k).length = k := List.length_take_of_le below.le
      rw [List.getElem?_append_right length.le, length, Nat.sub_self, List.drop_eq_getElem_cons below]
      rfl
    rw [readLinks_succ found, List.foldl_append, foldl_applyLink_readLinks start k below.le,
      foldl_applyLink_pendingLinks (fun link target member => idOfNumber_target streams found member)
        _ _ current, EhRegion.foldl_linkStep_unlinked]
    exact modifyRegion_linked eh.regions below t

end Linked

/-! ### Aliases filled -/

/-- Slots set one after another: a slot some entry names holds the target's
value, any other its first value. -/
theorem getElem?_foldl_set {α : Type} (target : List α) :
    ∀ (l : List (Nat × α)) (init : List α), init.length = target.length →
      (∀ p ∈ l, target[p.1]? = some p.2) → ∀ j,
      (l.foldl (fun sl p => sl.set p.1 p.2) init)[j]? =
        if ∃ p ∈ l, p.1 = j then target[j]? else init[j]?
  | [], _, _, _, j => by simp
  | p :: l, init, length, each, j => by
    have first := each p List.mem_cons_self
    have inside : p.1 < init.length := length ▸ (List.getElem?_eq_some_iff.1 first).1
    have rest := getElem?_foldl_set target l (init.set p.1 p.2) (by simpa using length)
      (fun q member => each q (List.mem_cons_of_mem _ member)) j
    simp only [List.foldl_cons, rest]
    by_cases same : p.1 = j
    · subst same
      simp [first, inside]
    · have later : (∃ q ∈ p :: l, q.1 = j) ↔ ∃ q ∈ l, q.1 = j := by
        constructor
        · rintro ⟨q, member, named⟩
          rcases List.mem_cons.1 member with rfl | member
          · exact absurd named same
          · exact ⟨q, member, named⟩
        · rintro ⟨q, member, named⟩
          exact ⟨q, List.mem_cons_of_mem _ member, named⟩
      simp only [later, List.getElem?_set_ne same]

/-- One alias entry: its number's slot names the region. -/
def fillAlias (t : EhTable) : UInt32 × RegionId → EhTable
  | (n, id) => { t with slots := t.slots.set n.toNat (some id) }

theorem foldl_fillAlias (l : List (UInt32 × RegionId)) (t : EhTable) :
    l.foldl fillAlias t =
      { t with slots := ((l.map fun entry => (entry.1.toNat, some entry.2)).foldl
        (fun sl p => sl.set p.1 p.2) t.slots) } := by
  induction l generalizing t with
  | nil => rfl
  | cons entry l ih => simp only [List.foldl_cons, ih, List.map_cons]; rfl

theorem mem_readAliases {eh : EhTable} {n : UInt32} {id : RegionId}
    (member : (n, id) ∈ eh.readAliases eh.regions.length) :
    ∃ r, eh.regions[id.val]? = some r ∧ n ∈ r.aka := by
  simp only [readAliases, List.take_length, List.mem_flatMap, List.mem_map] at member
  obtain ⟨⟨r, i⟩, listed, a, named, same⟩ := member
  simp only [Prod.mk.injEq] at same
  obtain ⟨rfl, rfl⟩ := same
  exact ⟨r, List.mem_zipIdx_iff_getElem?.1 listed, named⟩

section Filled

variable {eh : EhTable} (streams : eh.Streamable)
include streams

/-- The home slots with every alias filled in are the table's slots. -/
theorem aliases_filled :
    ((eh.readAliases eh.regions.length).map fun entry => (entry.1.toNat, some entry.2)).foldl
      (fun sl p => sl.set p.1 p.2) ((List.range eh.slots.length).map eh.homeAt) = eh.slots := by
  have each : ∀ p ∈ (eh.readAliases eh.regions.length).map fun entry => (entry.1.toNat, some entry.2),
      eh.slots[p.1]? = some p.2 := by
    intro p member
    obtain ⟨⟨n, id⟩, listed, rfl⟩ := List.mem_map.1 member
    obtain ⟨r, found, named⟩ := mem_readAliases listed
    exact streams.aliased id.val r found n named
  apply List.ext_getElem?
  intro j
  rw [getElem?_foldl_set eh.slots _ _ (by simp) each j]
  split_ifs with aliased
  · rfl
  · -- a slot no alias names holds its home, if any
    rw [List.getElem?_map]
    by_cases inside : j < eh.slots.length
    · rw [List.getElem?_range inside, List.getElem?_eq_getElem inside]
      simp only [Option.map_some, homeAt, List.getElem?_eq_getElem inside]
      cases entry : eh.slots[j] with
      | none => rfl
      | some id =>
        have below := streams.named j id (by rw [List.getElem?_eq_getElem inside, entry])
        have found := List.getElem?_eq_getElem below
        by_cases number : (eh.regionOf id).number.toNat = j
        · simp [number]
        · rw [regionOf_eq found] at number
          have listed := (number_or_aka (verify_eq_ok streams.verified).2.2 streams.fits
            (by rw [List.getElem?_eq_getElem inside, entry]) found).resolve_left number
          have small : j.toUInt32.toNat = j := by
            have fits := streams.fits
            rw [Nat.toUInt32_eq]
            exact UInt32.toNat_ofNat_of_lt' (by omega)
          refine absurd ⟨(j, some id), List.mem_map.2 ⟨(j.toUInt32, id), ?_, by simp [small]⟩, rfl⟩ aliased
          simp only [readAliases, List.take_length, List.mem_flatMap, List.mem_map]
          exact ⟨(eh.regions[id.val], id.val), List.mem_zipIdx_iff_getElem?.2 found, j.toUInt32, listed, rfl⟩
    · rw [List.getElem?_eq_none (by simpa using Nat.le_of_not_lt inside),
        List.getElem?_eq_none (Nat.le_of_not_lt inside)]
      rfl

end Filled

end EhTable

/-! ### The resolution -/

/-- A loop whose body, under an invariant, only ever yields `g` of its state
is the fold of `g`. -/
theorem forIn_eq_pure_foldl {m : Type → Type} [Monad m] [LawfulMonad m] {α β : Type}
    {f : α → β → m (ForInStep β)} (I : β → Prop) (g : β → α → β) :
    ∀ (l : List α) (init : β), I init →
      (∀ x ∈ l, ∀ b, I b → f x b = pure (.yield (g b x)) ∧ I (g b x)) →
      forIn l init f = pure (l.foldl g init)
  | [], _, _, _ => by simp
  | x :: l, init, holds, step => by
    obtain ⟨yields, holds'⟩ := step x List.mem_cons_self init holds
    rw [List.forIn_cons, yields, pure_bind]
    exact forIn_eq_pure_foldl I g l _ holds' fun y member => step y (List.mem_cons_of_mem _ member)

namespace ReadM

/-- The pending links set by number on `t`; a link its region's kind does not
carry fails once every link is tried. -/
def linkPending (count : Nat) (lookup : Int → Option RegionId) (pending : PendingLinks) (t : EhTable) :
    ReadM EhTable := do
  let mut t := t
  let mut misplaced : Option RegionId := none
  for (id, link, raw) in pending do
    let some target := lookup raw | fail (.indexOutOfRange "eh region" (Int64.ofInt raw) count)
    match (t.region? id).bind (·.setLink? link target) with
    | some r => t := t.modifyRegion id fun _ => r
    | none => misplaced := some id
  if let some id := misplaced then
    let n := ((t.region? id).map (·.number)).getD 0
    fail (.consistency s!"EH region {n} has a link its kind does not carry")
  return t

open EhTable in
/-- What the reader does once every slot is read: aliases fill their slots,
shared slots are checked against them, and the root and the pending links are
resolved by number. -/
def resolveSlots (count : Nat) (root : Int64) (acc : EhSlots) : ReadM EhTable := do
  let lookup := idOfNumber acc.table.regions
  let mut t := acc.table
  for (aliasNumber, id) in acc.aliases do
    if t.slots.length ≤ aliasNumber.toNat then
      fail (.indexOutOfRange "eh slot" aliasNumber.toUInt64.toInt64 count)
    t := { t with slots := t.slots.set aliasNumber.toNat (some id) }
  for (slot, owner) in acc.shared do
    let expected := lookup owner.toNat
    if expected.isNone || t.slots[slot]?.join != expected then
      fail (.consistency s!"shared EH slot {slot} is not an alias of region {owner}")
  if root != -1 then
    match lookup root.toInt with
    | some id => t := { t with root := some id }
    | none => fail (.indexOutOfRange "eh region" root count)
  linkPending count lookup acc.pending t

theorem readEhTable_eq : readEhTable = (do
    let lastRegionNumber ← onCursor CursorM.readU32
    let root ← onCursor CursorM.readSleb
    let count ← onCursor CursorM.readU32
    let count ← onCursor (CursorM.checkCount "eh region" count.toUInt64 0)
    let acc ← readSlots count count { table := { lastRegionNumber, slots := List.replicate count none } }
    let tag := (← onCursor CursorM.readU8).toNat
    if tag != Tag.null then fail (.unknownTag tag.toUInt64 "eh table terminator")
    resolveSlots count root acc) := by
  rfl

/-- Rename the trees of the regions read so far. -/
def EhSlots.mapTrees (f : NodeId → NodeId) (v : EhSlots) : EhSlots :=
  { v with table := v.table.mapTrees f }

end ReadM

namespace EhTable

section Resolved

variable {eh : EhTable} (streams : eh.Streamable)
include streams

theorem linkPending_eq (count : Nat) {pending : ReadM.PendingLinks}
    (listed : ∀ x ∈ pending.toList, x ∈ eh.readLinks eh.regions.length) {t : EhTable}
    (kinds : t.regions.map (·.kind.ordinal) = eh.regions.map (·.kind.ordinal)) :
    ReadM.linkPending count (idOfNumber eh.regions) pending t =
      pure (pending.toList.foldl (applyLink (idOfNumber eh.regions)) t) := by
  unfold ReadM.linkPending
  simp only
  -- the loop keeps the kinds of the regions and never notes a misplaced link
  rw [← Array.forIn_toList, forIn_eq_pure_foldl
      (fun b => b.2 = none ∧ b.1.regions.map (·.kind.ordinal) = eh.regions.map (·.kind.ordinal))
      (fun b x => (applyLink (idOfNumber eh.regions) b.1 x, b.2)) _ _ ⟨rfl, kinds⟩ ?_, pure_bind,
    List.foldl_hom (fun t => (t, (none : Option RegionId))) fun _ _ => rfl]
  rintro ⟨id, link, raw⟩ member ⟨u, m⟩ ⟨rfl, kinds⟩
  obtain ⟨r, target, found, carried, rfl⟩ := mem_readLinks (listed _ member)
  have named := idOfNumber_target streams found carried
  -- the region of `u` under this id has the kind of the table's
  obtain ⟨w, at_w, same⟩ : ∃ w, u.region? id = some w ∧ w.kind.ordinal = r.kind.ordinal := by
    have at_id := congrArg (·[id.val]?) kinds
    simp only [List.getElem?_map, found, Option.map_some, Option.map_eq_some_iff] at at_id
    exact at_id
  obtain ⟨w', set⟩ : ∃ w', w.setLink? link target = some w' := by
    refine Option.isSome_iff_exists.1 ?_
    rw [EhRegion.isSome_setLink?, RegionLink.carried_congr same, EhRegion.carried_of_mem_links carried]
  have applied : applyLink (idOfNumber eh.regions) u (id, link, (eh.regionOf target).number.toNat) =
      u.modifyRegion id fun _ => w' := by
    simp only [applyLink, named, at_w, Option.bind_some, set]
  simp only [named, at_w, Option.bind_some, set, applied, true_and]
  exact (map_modifyRegion (·.kind.ordinal) at_w (EhRegion.ordinal_setLink? set)).trans kinds

/-- Once every slot is read, the resolution passes every check and rebuilds
the table: renaming the trees of what it returns gives the written table. -/
theorem resolveSlots_eq (f : NodeId → NodeId) {acc : ReadM.EhSlots}
    (view : acc.mapTrees f = eh.staged eh.slots.length) :
    ∃ t, ReadM.resolveSlots eh.slots.length eh.rootNumber acc = pure t ∧ t.mapTrees f = eh ∧
      t.regions.map EhRegion.trees = acc.table.regions.map EhRegion.trees := by
  have staged := staged_staged streams _ le_rfl
  rw [← view] at staged
  obtain ⟨regions, slots, pending, aliases⟩ := staged.complete streams
  have regions : acc.table.regions.map (EhRegion.mapTrees f) = eh.regions.map EhRegion.unlinked := regions
  have slots : acc.table.slots = (List.range eh.slots.length).map eh.homeAt := slots
  have aliases : acc.aliases.toList = eh.readAliases eh.regions.length := aliases
  have lookup : idOfNumber acc.table.regions = idOfNumber eh.regions := calc
    idOfNumber acc.table.regions = idOfNumber (acc.table.regions.map (EhRegion.mapTrees f)) :=
      (idOfNumber_map (EhRegion.number_mapTrees f) _).symm
    _ = idOfNumber (eh.regions.map EhRegion.unlinked) := congrArg idOfNumber regions
    _ = idOfNumber eh.regions := idOfNumber_map EhRegion.number_unlinked _
  have filled : acc.aliases.toList.foldl fillAlias acc.table = { acc.table with slots := eh.slots } := by
    rw [foldl_fillAlias, aliases, slots, aliases_filled streams]
  -- the pending links, resolved on the table with its slots and root in place
  have resolved : ∀ t : EhTable, t.regions = acc.table.regions → t.slots = eh.slots → t.root = eh.root →
      t.lastRegionNumber = eh.lastRegionNumber →
      ∃ t', ReadM.linkPending eh.slots.length (idOfNumber eh.regions) acc.pending t = pure t' ∧
        t'.mapTrees f = eh ∧ t'.regions.map EhRegion.trees = acc.table.regions.map EhRegion.trees := by
    intro t same slotsOf rootOf last
    have kinds : t.regions.map (·.kind.ordinal) = eh.regions.map (·.kind.ordinal) := by
      have ordinals := congrArg (List.map (·.kind.ordinal)) regions
      simpa [same, Function.comp_def, EhRegion.mapTrees, EhRegion.unlinked] using ordinals
    refine ⟨_, linkPending_eq streams _ (fun x member => pending ▸ member) kinds, ?_,
      by rw [trees_foldl_applyLink, same]⟩
    rw [pending, mapTrees_foldl_applyLink,
      foldl_applyLink_readLinks streams (by simpa [mapTrees, same] using regions) _ le_rfl]
    simp only [List.take_length, List.drop_length, List.map_nil, List.append_nil, mapTrees, slotsOf, rootOf,
      last]
  unfold ReadM.resolveSlots
  simp only [lookup]
  rw [← Array.forIn_toList, forIn_eq_pure_foldl (fun t => t.slots.length = eh.slots.length) fillAlias _ _
    (by simpa using congrArg List.length slots) ?_, pure_bind]
  · -- every shared slot names, by number, the region its slot holds
    rw [← Array.forIn_toList, forIn_eq_pure_foldl (fun _ => True) (fun _ _ => PUnit.unit) _ _ trivial ?_,
      pure_bind]
    · rw [filled]
      cases root : eh.root with
      | none =>
        have none : eh.rootNumber = -1 := by simp [rootNumber, root]
        simp only [none, bne_self_eq_false, Bool.false_eq_true, if_false]
        exact resolved _ rfl rfl (root ▸ staged.root) staged.last
      | some id =>
        obtain ⟨set, named⟩ := idOfNumber_rootNumber streams root
        simp only [set, if_true, named]
        exact resolved _ rfl rfl root.symm staged.last
    · rintro ⟨slot, owner⟩ member _ _
      obtain ⟨id, held, number⟩ := staged.shared _ member
      dsimp only at held number
      have named := idOfNumber_regionOf streams (streams.named slot id held)
      rw [number] at named
      simp [filled, held, named]
  · -- every alias number is a slot of the table
    rintro ⟨n, id⟩ member t length
    obtain ⟨r, found, listed⟩ := mem_readAliases (aliases ▸ member)
    have inside := (List.getElem?_eq_some_iff.1 (streams.aliased id.val r found n listed)).1
    dsimp only
    rw [if_neg (by omega)]
    exact ⟨rfl, by simp [fillAlias, length]⟩

end Resolved

end EhTable

end IrStream
