import Mathlib
import IrStream.Proofs.Codec.Fuel

/-!
# Label numbers

A function body refers to its labels by number, through one signed varint:
the writer's `LabelTable.encode` numbers the labels first called named from 0
up and the others from -1 down, each in order of first call, and a label called
again keeps its number. The reader's `ReadM.labelRef` turns a number back into
a node: a named one through the named labels the body's header lists, an
unnamed one through the slots of the scope, making a fresh label the first time
a slot is referred to.

* `LabelTable.numberOf` is the numbering a run of calls should get;
  `LabelTable.encodeAll_empty` shows the writer gives it, through the table
  invariant `LabelTable.Numbers` that each call keeps (`Numbers.encode`).
* `ReadM.LabelsRead` is the reader's invariant over a run of references: slot
  `j` holds the `j`-th node made since the run began. `LabelsRead.next` is one
  reference and `LabelsRead.run` a whole run.
* `ReadM.labelRef_out_of_range`: every number outside both ranges is refused.
* `ReadM.label_numbering_round_trip` puts the two sides together.
-/

namespace IrStream

namespace LabelTable

/-! ## The numbering a run of calls should get -/

/-- A run of `encode` calls from `t`, one per `(label, named)` pair, in order:
the numbers answered and the table left. -/
def encodeAll (t : LabelTable) : List (NodeId × Bool) → List Int × LabelTable
  | [] => ([], t)
  | c :: rest =>
    let first := t.encode c.1 c.2
    let after := first.2.encodeAll rest
    (first.1 :: after.1, after.2)

/-- The labels of `calls`, each once, in order of first call. -/
def firstSeen (calls : List (NodeId × Bool)) : List NodeId := (calls.map (·.1)).eraseDups

/-- The labels whose first call has the flag `named`, in order of first call. -/
def firstWith (named : Bool) (calls : List (NodeId × Bool)) : List NodeId :=
  (firstSeen calls).filter fun l => calls.lookup l == some named

/-- The number label `l` should get: its place among the labels first called
named, counting up from 0, or among those first called unnamed, counting down
from -1. -/
def numberOf (calls : List (NodeId × Bool)) (l : NodeId) : Int :=
  if calls.lookup l = some true then ((firstWith true calls).idxOf l : Int)
  else -((firstWith false calls).idxOf l : Int) - 1

/-! ## First calls -/

theorem isSome_lookup {xs : List (NodeId × Bool)} {x : NodeId} :
    (xs.lookup x).isSome ↔ x ∈ xs.map (·.1) := by
  induction xs with
  | nil => simp
  | cons p xs ih =>
    by_cases same : x = p.1
    · simp [same]
    · simp [same]

theorem lookup_append_of_isSome {xs ys : List (NodeId × Bool)} {x : NodeId}
    (seen : (xs.lookup x).isSome) : (xs ++ ys).lookup x = xs.lookup x := by
  obtain ⟨b, found⟩ := Option.isSome_iff_exists.1 seen
  simp [List.lookup_append, found]

theorem mem_firstSeen {xs : List (NodeId × Bool)} {x : NodeId} :
    x ∈ firstSeen xs ↔ (xs.lookup x).isSome := by
  simp [firstSeen, List.mem_eraseDups]

theorem mem_firstWith {named : Bool} {xs : List (NodeId × Bool)} {x : NodeId} :
    x ∈ firstWith named xs ↔ xs.lookup x = some named := by
  constructor
  · intro member
    simpa using (List.mem_filter.1 member).2
  · intro found
    refine List.mem_filter.2 ⟨mem_firstSeen.2 (by simp [found]), by simp [found]⟩

/-- The first calls of a run extended by one call: a new label is added last. -/
theorem firstSeen_append_new {xs : List (NodeId × Bool)} {l : NodeId} (b : Bool)
    (fresh : xs.lookup l = none) : firstSeen (xs ++ [(l, b)]) = firstSeen xs ++ [l] := by
  have absent : l ∉ xs.map (·.1) := by
    rw [← isSome_lookup, fresh]; simp
  simp at absent
  simp [firstSeen, List.eraseDups_append, List.removeAll, List.eraseDups_cons, absent]

theorem firstSeen_append_old {xs : List (NodeId × Bool)} {l : NodeId} (b : Bool)
    (seen : (xs.lookup l).isSome) : firstSeen (xs ++ [(l, b)]) = firstSeen xs := by
  have present : l ∈ xs.map (·.1) := isSome_lookup.1 seen
  simp at present
  rcases present with found | found <;> simp [firstSeen, List.eraseDups_append, List.removeAll, found]


theorem lookup_append_single {xs : List (NodeId × Bool)} {l x : NodeId} (b : Bool) :
    (xs ++ [(l, b)]).lookup x = (xs.lookup x).or (if x = l then some b else none) := by
  by_cases same : x = l
  · simp [List.lookup_append, same]
  · have differ : (x == l) = false := beq_eq_false_iff_ne.2 same
    simp [List.lookup_append, List.lookup_cons, differ, same]

/-- Whether a label counts among those first called with a flag is settled by
its first call, so a longer run only adds labels after the old ones. -/
theorem filter_firstSeen_append (named : Bool) (xs ys : List (NodeId × Bool)) :
    (firstSeen xs).filter (fun x => (xs ++ ys).lookup x == some named) = firstWith named xs := by
  refine List.filter_congr fun x member => ?_
  rw [lookup_append_of_isSome (mem_firstSeen.1 member)]

theorem firstWith_append_new {xs : List (NodeId × Bool)} {l : NodeId} (named b : Bool)
    (fresh : xs.lookup l = none) :
    firstWith named (xs ++ [(l, b)]) = firstWith named xs ++ if b = named then [l] else [] := by
  rw [firstWith, firstSeen_append_new b fresh, List.filter_append, filter_firstSeen_append]
  by_cases same : b = named <;> simp [lookup_append_single, fresh, same]

theorem firstWith_append_old {xs : List (NodeId × Bool)} {l : NodeId} (named b : Bool)
    (seen : (xs.lookup l).isSome) : firstWith named (xs ++ [(l, b)]) = firstWith named xs := by
  rw [firstWith, firstSeen_append_old b seen, filter_firstSeen_append]

theorem firstWith_append_single (named : Bool) (xs : List (NodeId × Bool)) (c : NodeId × Bool) :
    ∃ extra, firstWith named (xs ++ [c]) = firstWith named xs ++ extra := by
  cases known : xs.lookup c.1 with
  | none => exact ⟨_, firstWith_append_new named c.2 known⟩
  | some _ => exact ⟨[], by simpa using firstWith_append_old named c.2 (by simp [known])⟩

theorem firstWith_append (named : Bool) (xs ys : List (NodeId × Bool)) :
    ∃ extra, firstWith named (xs ++ ys) = firstWith named xs ++ extra := by
  induction ys generalizing xs with
  | nil => exact ⟨[], by simp⟩
  | cons y ys ih =>
    obtain ⟨first, grown⟩ := firstWith_append_single named xs y
    obtain ⟨more, grownMore⟩ := ih (xs ++ [y])
    refine ⟨first ++ more, ?_⟩
    rw [← List.singleton_append, ← List.append_assoc, grownMore, grown, List.append_assoc]

/-- A call of a label whose first call had the other flag adds nothing to the
labels first called with `named`. -/
theorem firstWith_append_of_lookup {xs : List (NodeId × Bool)} {l : NodeId} {named b : Bool}
    (other : (xs ++ [(l, b)]).lookup l ≠ some named) :
    firstWith named (xs ++ [(l, b)]) = firstWith named xs := by
  cases known : xs.lookup l with
  | none =>
    have differ : b ≠ named := by simpa [lookup_append_single, known] using other
    simp [firstWith_append_new _ _ known, differ]
  | some _ => exact firstWith_append_old _ _ (by simp [known])

/-- A label keeps the number of its first call when more calls follow. -/
theorem numberOf_append_single {xs : List (NodeId × Bool)} {x : NodeId}
    (seen : (xs.lookup x).isSome) (c : NodeId × Bool) : numberOf (xs ++ [c]) x = numberOf xs x := by
  obtain ⟨first, found⟩ := Option.isSome_iff_exists.1 seen
  have listed : x ∈ firstWith first xs := mem_firstWith.2 found
  obtain ⟨extra, grown⟩ := firstWith_append_single first xs c
  have same : (xs ++ [c]).lookup x = xs.lookup x := lookup_append_of_isSome seen
  cases first <;> simp [numberOf, same, found, grown, List.idxOf_append_of_mem listed]

theorem numberOf_append {xs : List (NodeId × Bool)} {x : NodeId} (seen : (xs.lookup x).isSome)
    (ys : List (NodeId × Bool)) : numberOf (xs ++ ys) x = numberOf xs x := by
  induction ys generalizing xs with
  | nil => simp
  | cons y ys ih =>
    have longer : ((xs ++ [y]).lookup x).isSome := by rw [lookup_append_of_isSome seen]; exact seen
    rw [← List.singleton_append, ← List.append_assoc, ih longer, numberOf_append_single seen]

/-! ## The table's invariant -/

/-- What the table holds after the calls `seen`, each label numbered as
`numberOf` says. -/
structure Numbers (t : LabelTable) (seen : List (NodeId × Bool)) : Prop where
  named : t.named.toList = firstWith true seen
  unnamed : t.unnamed = (firstWith false seen).length
  index : ∀ l, t.index[l]? = (seen.lookup l).map fun _ => numberOf seen l

theorem numbers_empty : Numbers {} [] := ⟨rfl, rfl, fun _ => by simp⟩

/-- A label first seen goes last in its list: its number is that list's length. -/
theorem numberOf_append_new {xs : List (NodeId × Bool)} {l : NodeId} (b : Bool)
    (fresh : xs.lookup l = none) :
    numberOf (xs ++ [(l, b)]) l =
      if b then ((firstWith true xs).length : Int) else -((firstWith false xs).length : Int) - 1 := by
  have unlisted : ∀ named, l ∉ firstWith named xs := fun named member => by
    simp [mem_firstWith.1 member] at fresh
  cases b <;> simp [numberOf, lookup_append_single, fresh, firstWith_append_new,
    List.idxOf_append_of_notMem (unlisted _)]

/-- A call of `l` leaves the entry of every other label, and of every label
seen before, as it was. -/
theorem entry_append_single {seen : List (NodeId × Bool)} {l x : NodeId} (b : Bool)
    (other : x ≠ l ∨ (seen.lookup x).isSome) :
    ((seen ++ [(l, b)]).lookup x).map (fun _ => numberOf (seen ++ [(l, b)]) x) =
      (seen.lookup x).map fun _ => numberOf seen x := by
  cases known : seen.lookup x with
  | none =>
    have differ : x ≠ l := by simpa [known] using other
    simp [lookup_append_single, known, differ]
  | some _ =>
    have old : (seen.lookup x).isSome := by simp [known]
    simp [lookup_append_of_isSome old, known, numberOf_append_single old]

/-- Entering a new label under its number keeps the index right. -/
theorem Numbers.index_insert {t : LabelTable} {seen : List (NodeId × Bool)}
    (numbers : t.Numbers seen) {l : NodeId} (b : Bool) (x : NodeId) :
    (t.index.insert l (numberOf (seen ++ [(l, b)]) l))[x]? =
      ((seen ++ [(l, b)]).lookup x).map fun _ => numberOf (seen ++ [(l, b)]) x := by
  rw [Std.HashMap.getElem?_insert]
  by_cases same : l = x
  · subst same
    simp [lookup_append_single]
  · have differ : x ≠ l := Ne.symm same
    simp [same, entry_append_single b (Or.inl differ), numbers.index]

/-- One call of `encode` keeps the table's numbering and answers the number of
the label's first call. -/
theorem Numbers.encode {t : LabelTable} {seen : List (NodeId × Bool)} (numbers : t.Numbers seen)
    (l : NodeId) (b : Bool) :
    (t.encode l b).1 = numberOf (seen ++ [(l, b)]) l ∧
      (t.encode l b).2.Numbers (seen ++ [(l, b)]) := by
  cases known : seen.lookup l with
  | some first =>
    -- a label seen before answers its old number and leaves the table
    have old : (seen.lookup l).isSome := by simp [known]
    have found : t.index.get? l = some (numberOf seen l) := by
      simp [Std.HashMap.get?_eq_getElem?, numbers.index, known]
    simp only [LabelTable.encode, found]
    refine ⟨(numberOf_append_single old _).symm, ?named, ?unnamed, ?index⟩
    case named => rw [firstWith_append_old _ _ old]; exact numbers.named
    case unnamed => rw [firstWith_append_old _ _ old]; exact numbers.unnamed
    case index =>
      intro x
      have other : x ≠ l ∨ (seen.lookup x).isSome := by
        by_cases same : x = l
        · exact Or.inr (same ▸ old)
        · exact Or.inl same
      rw [entry_append_single b other, numbers.index]
  | none =>
    -- a new label goes last among the named or the unnamed ones
    have missing : t.index.get? l = none := by
      simp [Std.HashMap.get?_eq_getElem?, numbers.index, known]
    have number := numberOf_append_new b known
    cases b with
    | true =>
      have answer : (t.named.size : Int) = numberOf (seen ++ [(l, true)]) l := by
        simp [number, ← numbers.named]
      simp only [LabelTable.encode, missing, if_true]
      refine ⟨answer, ?_, ?_, ?_⟩
      · simp [numbers.named, firstWith_append_new _ _ known]
      · simp [numbers.unnamed, firstWith_append_new _ _ known]
      · rw [answer]; exact numbers.index_insert true
    | false =>
      have answer : -((t.unnamed + 1 : Nat) : Int) = numberOf (seen ++ [(l, false)]) l := by
        simp [number, numbers.unnamed]; omega
      simp only [LabelTable.encode, missing, Bool.false_eq_true, if_false]
      refine ⟨answer, ?_, ?_, ?_⟩
      · simp [numbers.named, firstWith_append_new _ _ known]
      · simp [numbers.unnamed, firstWith_append_new _ _ known]
      · rw [answer]; exact numbers.index_insert false

/-- A run of `encode` calls after `seen` answers each label the number of its
first call among all the calls, and leaves the table numbering them all. -/
theorem Numbers.encodeAll {t : LabelTable} {seen : List (NodeId × Bool)} (numbers : t.Numbers seen)
    (calls : List (NodeId × Bool)) :
    (t.encodeAll calls).1 = calls.map (fun c => numberOf (seen ++ calls) c.1) ∧
      (t.encodeAll calls).2.Numbers (seen ++ calls) := by
  induction calls generalizing t seen with
  | nil => simpa [LabelTable.encodeAll] using numbers
  | cons c rest ih =>
    obtain ⟨l, b⟩ := c
    obtain ⟨answer, step⟩ := numbers.encode l b
    obtain ⟨answers, after⟩ := ih step
    have called : ((seen ++ [(l, b)]).lookup l).isSome := by simp [lookup_append_single]
    have longer : seen ++ [(l, b)] ++ rest = seen ++ (l, b) :: rest := by simp
    rw [longer] at answers after
    refine ⟨?_, after⟩
    simp only [LabelTable.encodeAll, List.map_cons, answers, answer]
    rw [← longer, numberOf_append called]

/-- From the empty table, the calls are numbered as `numberOf` says, and the
table's counts are those of the labels first called named and unnamed. -/
theorem encodeAll_empty (calls : List (NodeId × Bool)) :
    (encodeAll {} calls).1 = calls.map (fun c => numberOf calls c.1) ∧
      (encodeAll {} calls).2.Numbers calls := by
  simpa using numbers_empty.encodeAll calls

/-! ## The numbers given -/

theorem numberOf_of_named {all : List (NodeId × Bool)} {x : NodeId} (found : all.lookup x = some true) :
    numberOf all x = (firstWith true all).idxOf x := by
  simp [numberOf, found]

theorem numberOf_of_unnamed {all : List (NodeId × Bool)} {x : NodeId} (found : all.lookup x = some false) :
    numberOf all x = -((firstWith false all).idxOf x : Int) - 1 := by
  simp [numberOf, found]

/-- Distinct labels get distinct numbers. -/
theorem numberOf_inj {all : List (NodeId × Bool)} {x y : NodeId} (seenX : (all.lookup x).isSome)
    (seenY : (all.lookup y).isSome) : numberOf all x = numberOf all y ↔ x = y := by
  refine ⟨fun same => ?_, fun same => same ▸ rfl⟩
  obtain ⟨bx, foundX⟩ := Option.isSome_iff_exists.1 seenX
  obtain ⟨bY, foundY⟩ := Option.isSome_iff_exists.1 seenY
  have listed : x ∈ firstWith bx all := mem_firstWith.2 foundX
  cases bx <;> cases bY <;>
    simp only [numberOf_of_named, numberOf_of_unnamed, foundX, foundY] at same
  · exact (List.idxOf_inj listed).1 (by omega)
  · omega
  · omega
  · exact (List.idxOf_inj listed).1 (by omega)

end LabelTable

namespace ReadM

/-! ## Resolving one number -/

/-- The unnamed-label slot a negative label number names: -1 is slot 0. -/
def unnamedSlot (index : Int64) : UInt32 := (-(index.toInt + 1)).toNat.toUInt32

theorem labelRef_of_named {s : TreeReader} {sc : ScopeInput} (hasScope : s.scope = some sc)
    {index : Int64} (nonneg : 0 ≤ index.toInt) {id : NodeId}
    (found : sc.namedLabels[index.toInt.toNat]? = some id) :
    labelRef index s = .ok id s := by
  simp only [labelRef, scope, bind, EStateM.bind, get, getThe, MonadStateOf.get, EStateM.get,
    hasScope, pure, EStateM.pure, nonneg, if_true, found]

theorem labelRef_of_made {s : TreeReader} {sc : ScopeInput} (hasScope : s.scope = some sc)
    {index : Int64} (negative : index.toInt < 0)
    (within : -(index.toInt + 1) < sc.numUnnamedLabels.toNat) {id : NodeId}
    (made : sc.unnamedLabels[unnamedSlot index]? = some id) :
    labelRef index s = .ok id s := by
  have named : ¬ 0 ≤ index.toInt := by omega
  have inRange : ¬ -(index.toInt + 1) ≥ (sc.numUnnamedLabels.toNat : Int) := by omega
  simp only [unnamedSlot] at made
  simp only [labelRef, scope, bind, EStateM.bind, get, getThe, MonadStateOf.get, EStateM.get,
    hasScope, pure, EStateM.pure, named, if_false, inRange, Std.HashMap.get?_eq_getElem?, made]

theorem labelRef_of_unseen {s : TreeReader} {sc : ScopeInput} (hasScope : s.scope = some sc)
    {index : Int64} (negative : index.toInt < 0)
    (within : -(index.toInt + 1) < sc.numUnnamedLabels.toNat)
    (absent : sc.unnamedLabels[unnamedSlot index]? = none) :
    labelRef index s = .ok ⟨s.program.arena.size⟩ { s with
      program := (s.program.labelDecl sc.function none).2
      scope := some { sc with
        unnamedLabels := sc.unnamedLabels.insert (unnamedSlot index) ⟨s.program.arena.size⟩ } } := by
  have named : ¬ 0 ≤ index.toInt := by omega
  have inRange : ¬ -(index.toInt + 1) ≥ (sc.numUnnamedLabels.toNat : Int) := by omega
  simp only [unnamedSlot] at absent
  simp only [labelRef, scope, bind, EStateM.bind, get, getThe, MonadStateOf.get, EStateM.get,
    hasScope, pure, EStateM.pure, named, if_false, inRange, Std.HashMap.get?_eq_getElem?, absent,
    modifyGet, MonadStateOf.modifyGet, EStateM.modifyGet, setScope, modify]
  rfl

/-- A number outside both ranges is refused, naming the range it missed, and
the reader is left as it was. -/
theorem labelRef_out_of_range {s : TreeReader} {sc : ScopeInput} (hasScope : s.scope = some sc)
    {index : Int64}
    (outside : index.toInt < -(sc.numUnnamedLabels.toNat : Int) ∨ (sc.namedLabels.size : Int) ≤ index.toInt) :
    labelRef index s = .error (.indexOutOfRange "label" index
      (if 0 ≤ index.toInt then sc.namedLabels.size else sc.numUnnamedLabels.toNat)) s := by
  by_cases nonneg : 0 ≤ index.toInt
  · have missing : sc.namedLabels[index.toInt.toNat]? = none := by
      rw [Array.getElem?_eq_none_iff]; omega
    simp only [labelRef, scope, bind, EStateM.bind, get, getThe, MonadStateOf.get, EStateM.get,
      hasScope, pure, EStateM.pure, nonneg, if_true, missing, fail, throw, throwThe,
      MonadExceptOf.throw, EStateM.throw]
  · have beyond : -(index.toInt + 1) ≥ (sc.numUnnamedLabels.toNat : Int) := by omega
    simp only [labelRef, scope, bind, EStateM.bind, get, getThe, MonadStateOf.get, EStateM.get,
      hasScope, pure, EStateM.pure, nonneg, if_false, beyond, if_true, fail, throw, throwThe,
      MonadExceptOf.throw, EStateM.throw]

/-! ## Resolving a run of numbers -/

open LabelTable

/-- A scope given the counts of the calls `all`: one named label for each label
first called named, and as many unnamed slots as labels first called unnamed. -/
structure Counted (sc : ScopeInput) (all : List (NodeId × Bool)) : Prop where
  named : sc.namedLabels.size = (firstWith true all).length
  namedFits : sc.namedLabels.size < UInt32.size
  unnamed : sc.numUnnamedLabels.toNat = (firstWith false all).length

/-- The node a reader gives the label numbered `n`: the named label at place
`n`, or for `n < 0` the unnamed label made `-(n + 1)`-th, from node `base` on. -/
def labelNode (named : Array NodeId) (base : Nat) (n : Int) : NodeId :=
  if 0 ≤ n then named.getD n.toNat default else ⟨base + (-(n + 1)).toNat⟩

/-- The reader after the label references of the calls `seen`: its scope is
`sc` but for the unnamed labels made so far, and slot `j` holds node
`base + j`, made when the slot was first referred to. -/
structure LabelsRead (sc : ScopeInput) (base : Nat) (seen : List (NodeId × Bool))
    (r : TreeReader) : Prop where
  scope : ∃ made : Std.HashMap UInt32 NodeId, r.scope = some { sc with unnamedLabels := made } ∧
    ∀ j : UInt32, made[j]? =
      if j.toNat < (firstWith false seen).length then some ⟨base + j.toNat⟩ else none
  size : r.program.arena.size = base + (firstWith false seen).length

theorem LabelsRead.start {s : TreeReader} {sc : ScopeInput} (hasScope : s.scope = some sc)
    (fresh : sc.unnamedLabels = {}) : LabelsRead sc s.program.arena.size [] s := by
  refine ⟨⟨{}, ?_, fun j => by simp [firstWith, firstSeen]⟩, by simp [firstWith, firstSeen]⟩
  rw [hasScope, ← fresh]

theorem length_firstWith_le {seen all : List (NodeId × Bool)} (pre : seen <+: all) (named : Bool) :
    (firstWith named seen).length ≤ (firstWith named all).length := by
  obtain ⟨rest, rfl⟩ := pre
  obtain ⟨extra, grown⟩ := firstWith_append named seen rest
  simp [grown]

theorem toInt_ofInt_of_lt {n : Int} (low : -UInt32.size ≤ n) (high : n < UInt32.size) :
    (Int64.ofInt n).toInt = n :=
  Int64.toInt_ofInt_of_le (by simp [UInt32.size] at low; omega) (by simp [UInt32.size] at high; omega)

theorem unnamedSlot_ofInt {k : Nat} (small : k < UInt32.size) :
    (unnamedSlot (Int64.ofInt (-(k : Int) - 1))).toNat = k := by
  have roundTrip := toInt_ofInt_of_lt (n := -(k : Int) - 1) (by omega) (by omega)
  simp only [unnamedSlot, roundTrip]
  simp; omega

/-- One label reference of the run: the label of the next call resolves to its
node, and a new node is made exactly when an unnamed label is first referred to. -/
theorem LabelsRead.next {sc : ScopeInput} {base : Nat} {seen all : List (NodeId × Bool)}
    {r : TreeReader} (read : LabelsRead sc base seen r) (counted : Counted sc all)
    {l : NodeId} {b : Bool} (pre : seen ++ [(l, b)] <+: all) :
    ∃ r', labelRef (Int64.ofInt (numberOf all l)) r =
        .ok (labelNode sc.namedLabels base (numberOf all l)) r' ∧
      LabelsRead sc base (seen ++ [(l, b)]) r' := by
  obtain ⟨made, hasScope, slots⟩ := read.scope
  have called : ((seen ++ [(l, b)]).lookup l).isSome := by simp [lookup_append_single]
  have number : numberOf all l = numberOf (seen ++ [(l, b)]) l := by
    obtain ⟨rest, rfl⟩ := pre
    exact numberOf_append called rest
  have namedBound := length_firstWith_le pre true
  have unnamedBound := length_firstWith_le pre false
  have unnamedFits : (firstWith false all).length < UInt32.size := by
    rw [← counted.unnamed]; exact sc.numUnnamedLabels.toNat_lt
  have namedFits := counted.namedFits
  have width : UInt32.size = 4294967296 := rfl
  obtain ⟨first, found⟩ := Option.isSome_iff_exists.1 called
  cases first with
  | true =>
    -- a named label: its place in the named list, nothing made
    have listed : l ∈ firstWith true (seen ++ [(l, b)]) := mem_firstWith.2 found
    have place := List.idxOf_lt_length_iff.2 listed
    rw [number, numberOf_of_named found]
    set n := (firstWith true (seen ++ [(l, b)])).idxOf l
    have inside : n < sc.namedLabels.size := by rw [counted.named]; omega
    have roundTrip : (Int64.ofInt n).toInt = n := toInt_ofInt_of_lt (by omega) (by omega)
    have same : firstWith false (seen ++ [(l, b)]) = firstWith false seen :=
      firstWith_append_of_lookup (by simp [found])
    refine ⟨r, labelRef_of_named hasScope (by omega) ?_, ⟨made, hasScope, ?_⟩, ?_⟩
    · simp [roundTrip, labelNode, inside]
    · rw [same]; exact slots
    · rw [same]; exact read.size
  | false =>
    rw [number]
    cases old : seen.lookup l with
    | some earlier =>
      -- an unnamed label referred to before: its slot is made already
      have before : (seen.lookup l).isSome := by simp [old]
      have unnamedBefore : seen.lookup l = some false := by
        rw [← found, lookup_append_of_isSome before]
      have same : firstWith false (seen ++ [(l, b)]) = firstWith false seen :=
        firstWith_append_old _ _ before
      have listed : l ∈ firstWith false seen := mem_firstWith.2 unnamedBefore
      have place := List.idxOf_lt_length_iff.2 listed
      rw [same] at unnamedBound
      rw [numberOf_of_unnamed found, same]
      set k := (firstWith false seen).idxOf l
      have slot := unnamedSlot_ofInt (k := k) (by omega)
      have roundTrip := toInt_ofInt_of_lt (n := -(k : Int) - 1) (by omega) (by omega)
      refine ⟨r, labelRef_of_made hasScope (by omega) (by dsimp only; rw [roundTrip, counted.unnamed]; omega) ?_,
        ⟨made, hasScope, ?_⟩, ?_⟩
      · simp only [slots, slot, place, if_true, labelNode]
        simp; omega
      · rw [same]; exact slots
      · rw [same]; exact read.size
    | none =>
      -- the first reference of an unnamed label: the next node is made for it
      have unnamed : b = false := by simpa [lookup_append_single, old] using found
      subst unnamed
      have grown : firstWith false (seen ++ [(l, false)]) = firstWith false seen ++ [l] := by
        simpa using firstWith_append_new false false old
      rw [numberOf_append_new false old]
      simp only [Bool.false_eq_true, if_false]
      set k := (firstWith false seen).length with length
      have room : k + 1 ≤ (firstWith false all).length := by
        simpa [grown] using unnamedBound
      have slot := unnamedSlot_ofInt (k := k) (by omega)
      have roundTrip := toInt_ofInt_of_lt (n := -(k : Int) - 1) (by omega) (by omega)
      have absent : made[unnamedSlot (Int64.ofInt (-(k : Int) - 1))]? = none := by
        rw [slots, slot]; simp
      have step := labelRef_of_unseen hasScope (by omega)
        (by dsimp only; rw [roundTrip, counted.unnamed]; omega) absent
      have answer : labelNode sc.namedLabels base (-(k : Int) - 1) = ⟨r.program.arena.size⟩ := by
        rw [labelNode, if_neg (by omega), read.size]
        simp [length]
      rw [answer]
      refine ⟨_, step, ⟨_, rfl, fun j => ?_⟩, ?_⟩
      · rw [Std.HashMap.getElem?_insert, slots, grown, List.length_append, List.length_singleton,
          read.size, ← length]
        generalize unnamedSlot (Int64.ofInt (-(k : Int) - 1)) = key at slot ⊢
        by_cases same : key = j
        · have last : j.toNat = k := same ▸ slot
          simp [same, last]
        · have other : j.toNat ≠ k := fun last => same (UInt32.toNat_inj.1 (slot.trans last.symm))
          have below : j.toNat < k + 1 ↔ j.toNat < k := by omega
          simp [same, below]
      · simp [Program.labelDecl, grown, read.size, Nat.add_assoc]

/-- The label references of the calls `rest`, read after those of `seen`: each
resolves to its label's node, and the reader keeps its invariant. -/
theorem LabelsRead.run {sc : ScopeInput} {base : Nat} {all : List (NodeId × Bool)}
    (counted : Counted sc all) (rest : List (NodeId × Bool)) :
    ∀ {seen : List (NodeId × Bool)} {r : TreeReader}, seen ++ rest <+: all →
      LabelsRead sc base seen r →
      ∃ r', (rest.map fun c => Int64.ofInt (numberOf all c.1)).mapM labelRef r =
          .ok (rest.map fun c => labelNode sc.namedLabels base (numberOf all c.1)) r' ∧
        LabelsRead sc base (seen ++ rest) r' := by
  induction rest with
  | nil => exact fun _ read => ⟨_, rfl, by simpa using read⟩
  | cons c rest ih =>
    intro seen r pre read
    obtain ⟨l, b⟩ := c
    have firstPre : seen ++ [(l, b)] <+: all := List.IsPrefix.trans ⟨rest, by simp⟩ pre
    obtain ⟨r₁, first, read₁⟩ := read.next counted firstPre
    obtain ⟨r₂, more, read₂⟩ := ih (by simpa using pre) read₁
    refine ⟨r₂, ?_, by simpa using read₂⟩
    simp only [List.map_cons, List.mapM_cons, bind, EStateM.bind, first, more, pure, EStateM.pure]

/-! ## Distinct labels, distinct nodes -/

theorem numberOf_lt_length {all : List (NodeId × Bool)} {x : NodeId} (seen : (all.lookup x).isSome) :
    numberOf all x < (firstWith true all).length := by
  obtain ⟨b, found⟩ := Option.isSome_iff_exists.1 seen
  cases b with
  | false => rw [numberOf_of_unnamed found]; omega
  | true =>
    have place := List.idxOf_lt_length_iff.2 (mem_firstWith.2 found)
    rw [numberOf_of_named found]; omega

theorem labelNode_of_nonneg {named : Array NodeId} {base : Nat} {n : Int} (nonneg : 0 ≤ n)
    (inside : n.toNat < named.size) : labelNode named base n = named[n.toNat] := by
  simp [labelNode, nonneg, inside]

theorem labelNode_of_neg {named : Array NodeId} {base : Nat} {n : Int} (negative : n < 0) :
    labelNode named base n = ⟨base + (-(n + 1)).toNat⟩ := by
  simp [labelNode, not_le.2 negative]

/-- Numbers below the named count resolve to distinct nodes when the named
labels are distinct nodes made before `base`. -/
theorem labelNode_inj {named : Array NodeId} {base : Nat} (distinct : named.toList.Nodup)
    (before : ∀ id ∈ named, id.val < base) {n n' : Int} (inside : n < named.size)
    (inside' : n' < named.size) (same : labelNode named base n = labelNode named base n') :
    n = n' := by
  by_cases nonneg : 0 ≤ n <;> by_cases nonneg' : 0 ≤ n'
  · -- two named labels: the named list has no repeats
    rw [labelNode_of_nonneg nonneg (by omega), labelNode_of_nonneg nonneg' (by omega)] at same
    have place : n.toNat < named.toList.length := by simp; omega
    have place' : n'.toNat < named.toList.length := by simp; omega
    have := (@List.Nodup.getElem_inj_iff _ _ distinct _ place _ place').1 (by simpa using same)
    omega
  · -- a named label is older than every unnamed one
    have := before _ (Array.getElem_mem (i := n.toNat) (by omega))
    rw [labelNode_of_nonneg nonneg (by omega), labelNode_of_neg (by omega)] at same
    rw [same] at this; simp at this
  · have := before _ (Array.getElem_mem (i := n'.toNat) (by omega))
    rw [labelNode_of_neg (by omega), labelNode_of_nonneg nonneg' (by omega)] at same
    rw [← same] at this; simp at this
  · rw [labelNode_of_neg (by omega), labelNode_of_neg (by omega)] at same
    simp only [NodeId.mk.injEq] at same
    omega

/-- Distinct labels of the calls resolve to distinct nodes. -/
theorem labelNode_numberOf_inj {sc : ScopeInput} {base : Nat} {all : List (NodeId × Bool)}
    (counted : Counted sc all) (distinct : sc.namedLabels.toList.Nodup)
    (before : ∀ id ∈ sc.namedLabels, id.val < base) {x y : NodeId}
    (seenX : (all.lookup x).isSome) (seenY : (all.lookup y).isSome) :
    labelNode sc.namedLabels base (numberOf all x) = labelNode sc.namedLabels base (numberOf all y) ↔
      x = y := by
  refine ⟨fun same => (numberOf_inj seenX seenY).1 ?_, fun same => same ▸ rfl⟩
  have inside := numberOf_lt_length seenX
  have inside' := numberOf_lt_length seenY
  rw [← counted.named] at inside inside'
  exact labelNode_inj distinct before inside inside' same

/-! ## The round trip -/

/-- Labels survive the trip through their numbers. The writer numbers the
labels first called named from 0 up and the others from -1 down, in order of
first call, a repeated label keeping its number. A reader given the named labels
and the count of unnamed ones that the writer wrote resolves every prefix of
the numbers to one node per label, making a node for an unnamed label only on
its first reference; and it refuses every number outside both ranges, the least
`Int64` among them. -/
theorem label_numbering_round_trip (calls : List (NodeId × Bool)) (s : TreeReader)
    (sc : ScopeInput) (hasScope : s.scope = some sc) (fresh : sc.unnamedLabels = {})
    (fits : (encodeAll {} calls).2.named.size < UInt32.size ∧
      (encodeAll {} calls).2.unnamed < UInt32.size)
    (namedCount : sc.namedLabels.size = (encodeAll {} calls).2.named.size.toUInt32.toNat)
    (unnamedCount : sc.numUnnamedLabels = (encodeAll {} calls).2.unnamed.toUInt32)
    (distinct : sc.namedLabels.toList.Nodup)
    (made : ∀ id ∈ sc.namedLabels, id.val < s.program.arena.size) :
    (encodeAll {} calls).1 = calls.map (fun c => numberOf calls c.1) ∧
    (∀ k, ∃ r, (((encodeAll {} calls).1.map Int64.ofInt).take k).mapM labelRef s =
        .ok ((calls.take k).map fun c =>
          labelNode sc.namedLabels s.program.arena.size (numberOf calls c.1)) r ∧
      r.program.arena.size = s.program.arena.size + (firstWith false (calls.take k)).length) ∧
    (∀ x y, (calls.lookup x).isSome → (calls.lookup y).isSome →
      (labelNode sc.namedLabels s.program.arena.size (numberOf calls x) =
        labelNode sc.namedLabels s.program.arena.size (numberOf calls y) ↔ x = y)) ∧
    (∀ (r : TreeReader) (current : ScopeInput) (index : Int64), r.scope = some current →
      (index.toInt < -(current.numUnnamedLabels.toNat : Int) ∨
        (current.namedLabels.size : Int) ≤ index.toInt) →
      labelRef index r = .error (.indexOutOfRange "label" index
        (if 0 ≤ index.toInt then current.namedLabels.size else current.numUnnamedLabels.toNat)) r) ∧
    (∀ (r : TreeReader) (current : ScopeInput), r.scope = some current →
      labelRef Int64.minValue r =
        .error (.indexOutOfRange "label" Int64.minValue current.numUnnamedLabels.toNat) r) := by
  obtain ⟨written, numbers⟩ := encodeAll_empty calls
  have counted : Counted sc calls := by
    refine ⟨?_, ?_, ?_⟩
    · simp [namedCount, Nat.mod_eq_of_lt fits.1, ← numbers.named]
    · simpa [namedCount, Nat.mod_eq_of_lt fits.1] using fits.1
    · have small := fits.2
      rw [numbers.unnamed] at small
      simpa [unnamedCount, numbers.unnamed] using small
  refine ⟨written, fun k => ?_, fun x y seenX seenY => labelNode_numberOf_inj counted distinct made seenX seenY,
    fun r current index hasCurrent outside => labelRef_out_of_range hasCurrent outside,
    fun r current hasCurrent => ?_⟩
  · obtain ⟨r, run, read⟩ := LabelsRead.run counted (calls.take k)
      (by simpa using List.take_prefix k calls) (LabelsRead.start hasScope fresh)
    refine ⟨r, ?_, by simpa using read.size⟩
    rw [written, List.map_map, ← List.map_take]
    exact run
  · have least : Int64.minValue.toInt < -(current.numUnnamedLabels.toNat : Int) := by
      have := current.numUnnamedLabels.toNat_lt
      rw [Int64.toInt_minValue]; simp at this; omega
    rw [labelRef_out_of_range hasCurrent (Or.inl least), if_neg (by omega)]

/-- Five calls of three labels, read in a body whose arena holds one node:
label 5 is named, labels 6 and 7 unnamed, and the two unnamed ones are made on
their first references, as nodes 1 and 2. -/
theorem labels_of_five_calls :
    let calls : List (NodeId × Bool) :=
      [(⟨5⟩, true), (⟨6⟩, false), (⟨5⟩, false), (⟨7⟩, false), (⟨6⟩, true)]
    let sc : ScopeInput :=
      { function := ⟨0⟩, locals := #[], localOffsets := #[], localData := .empty
        namedLabels := #[⟨0⟩], numUnnamedLabels := 2 }
    let s : TreeReader :=
      { program := { arena := { nodes := #[default] } }, strings := .empty, scope := some sc
        cursor := { name := "body", data := .empty } }
    (encodeAll {} calls).1 = [0, -1, 0, -2, -1] ∧
      ∃ r, ((encodeAll {} calls).1.map Int64.ofInt).mapM labelRef s =
        .ok [⟨0⟩, ⟨1⟩, ⟨0⟩, ⟨2⟩, ⟨1⟩] r ∧ r.program.arena.size = 3 := by
  intro calls sc s
  have table := (encodeAll_empty calls).2
  have named : (encodeAll {} calls).2.named.size = 1 := by
    rw [← Array.length_toList, table.named]; decide
  have unnamed : (encodeAll {} calls).2.unnamed = 2 := by
    rw [table.unnamed]; decide
  obtain ⟨written, run, -⟩ := label_numbering_round_trip calls s sc rfl rfl
    ⟨by rw [named]; decide, by rw [unnamed]; decide⟩ (by rw [named]; rfl) (by rw [unnamed]; rfl)
    (by decide) (by simp [s, sc, Arena.size])
  obtain ⟨r, result, size⟩ := run calls.length
  rw [written, List.map_map, List.take_of_length_le (by simp), List.take_of_length_le le_rfl]
    at result
  refine ⟨by rw [written]; decide, r, ?_, ?_⟩
  · rw [written, List.map_map, result]
    congr 1
  · rw [size]; decide

end ReadM
end IrStream
