import Mathlib
import IrStream.Proofs.Body.EhForest
import IrStream.Proofs.Codec.EhStream
import IrStream.Proofs.Codec.ReadFrame
import IrStream.Proofs.Codec.DeclTables
import IrStream.Service.Models

/-!
Which region ids `EhTable.verify` and the table's writer look up, and why each
of them names a region of the table.

`verify` range-checks the links of every region and the root before anything
else, but it looks up the region of each slot without a check: a slot that
names no region stops it there (`VerifyError.ehSlotOutOfRange`, where the
original stops the program), and only such a slot does
(`EhTable.verify_slotOutOfRange`). So whether `verify` answers rests on the
tables themselves: every table the program makes has its slots naming regions
(`EhTable.SlotsNamed`). The calls that build a table keep that
(`EhTable.SlotsNamed.addRegion`, `EhTable.SlotsNamed.addAlias`), the reader of
the stream hands out only ids of regions it has read
(`ReadM.readEhTable_named`), and so do the steps of the `eh_ops` request, whose
region arguments are range-checked (`Service.ehStep_named`).

The writer looks up the region of each slot, the root and the links of each
region it writes in full. Once `verify` accepts a table, none of these lookups
falls back to the writer's placeholder (`verified_table_lookups_in_range`).
-/

open Std.Do

set_option mvcgen.warning false

namespace IrStream

namespace EhTable

variable {t t' : EhTable}

/-! ### Tables whose slots name regions -/

/-- A table whose slots name regions still does with more regions. -/
theorem SlotsNamed.mono (named : t.SlotsNamed) (grows : t.regions.length ≤ t'.regions.length)
    (same : t'.slots = t.slots) : t'.SlotsNamed := by
  intro s id found
  rw [same] at found
  exact lt_of_lt_of_le (named s id found) grows

/-- Rewriting a region keeps the slots and the region count. -/
theorem SlotsNamed.modifyRegion (named : t.SlotsNamed) (id : RegionId) (f : EhRegion → EhRegion) :
    (t.modifyRegion id f).SlotsNamed :=
  named.mono (by simp [EhTable.modifyRegion]) rfl

/-- Pointing one slot at a region of the table keeps every slot naming a region. -/
theorem SlotsNamed.set (named : t.SlotsNamed) (k : Nat) {id : RegionId}
    (live : id.val < t.regions.length) : { t with slots := t.slots.set k (some id) }.SlotsNamed := by
  intro s target found
  simp only [List.getElem?_set] at found
  split_ifs at found
  · cases found
    exact live
  · exact named s target found

/-- One more slot, empty or naming a region of the table, keeps every slot
naming a region. -/
theorem SlotsNamed.push (named : t.SlotsNamed) (grows : t.regions.length ≤ t'.regions.length)
    {entry : Option RegionId} (slots : t'.slots = t.slots ++ [entry])
    (live : ∀ id ∈ entry, id.val < t'.regions.length) : t'.SlotsNamed := by
  intro s id found
  rw [slots, List.getElem?_append] at found
  split_ifs at found
  · exact lt_of_lt_of_le (named s id found) grows
  · rcases past : s - t.slots.length with _ | k
    · exact live id (by simpa [past] using found)
    · simp [past] at found

/-- A new region's slot names the region, wherever it is put. -/
theorem SlotsNamed.addRegion (named : t.SlotsNamed) (kind : EhKind) (outer : Option RegionId) :
    (t.addRegion kind outer).2.SlotsNamed :=
  named.push (by simp) (slots_addRegion t kind outer) (by simp)

/-- An alias's slot names the region it aliases. -/
theorem SlotsNamed.addAlias (named : t.SlotsNamed) {target : RegionId}
    (live : target.val < t.regions.length) : (t.addAlias target).2.SlotsNamed :=
  named.push (by simp) (slots_addAlias t target) (by simpa using live)

/-! ### Lookups that find their region -/

theorem region?_eq_regionOf {id : RegionId} (live : id.val < t.regions.length) :
    t.region? id = some (t.regionOf id) := by
  simp [regionOf, region?, live]

theorem region?_of_inRange {l : Option RegionId} (inside : t.inRange l = true) :
    ∀ id ∈ l, t.region? id = some (t.regionOf id) := by
  rintro id rfl
  exact region?_eq_regionOf (by simpa [inRange] using inside)

/-- A table that passes `verify` has every link of every region inside the
table. -/
theorem inRange_of_verify (verified : t.verify = .ok ()) {i : Nat} {r : EhRegion}
    (found : t.regions[i]? = some r) :
    ∀ l ∈ [r.outer, r.inner, r.nextPeer] ++ r.kind.links, t.inRange l = true := by
  obtain ⟨clean, -, -⟩ := verify_eq_ok verified
  intro l member
  cases l with
  | none => rfl
  | some target =>
    rw [← map_snd_links] at member
    obtain ⟨⟨link, _⟩, listed, rfl⟩ := List.mem_map.1 member
    simpa [inRange] using link_lt clean found listed

end EhTable

/-! ### The tables the stream reader makes -/

namespace ReadM

/-- `Q` holds of the answer after a success. -/
abbrev yields {β : Type} (Q : β → Prop) :
    PostCond β (.except StreamError (.arg TreeReader .pure)) :=
  post⟨fun b _ => ⌜Q b⌝, fun _ _ => ⌜True⌝⟩

theorem yields_any {β : Type} (x : ReadM β) : ⦃fun _ => ⌜True⌝⦄ x ⦃yields fun _ => True⦄ :=
  triple_iff_run.2 fun s _ => by split <;> trivial

theorem onCursor_any {β : Type} (m : CursorM β) :
    ⦃fun _ => ⌜True⌝⦄ onCursor m ⦃yields fun _ => True⦄ :=
  yields_any _

theorem readRegion_any (variant : Nat) (id : RegionId) (pending : PendingLinks) :
    ⦃fun _ => ⌜True⌝⦄ readRegion variant id pending ⦃yields fun _ => True⦄ :=
  yields_any _

/-- The slots filled so far, and the aliases noted, name regions read so far. -/
def EhSlots.Named (acc : EhSlots) : Prop :=
  acc.table.SlotsNamed ∧ ∀ x ∈ acc.aliases.toList, x.2.val < acc.table.regions.length

theorem EhSlots.Named.addRegion {acc : EhSlots} (named : acc.Named) (slot : Nat) (region : EhRegion)
    (pending : PendingLinks) : (acc.addRegion slot region pending).Named := by
  obtain ⟨slots, aliases⟩ := named
  have grows : acc.table.regions.length < acc.table.regions.length + 1 := Nat.lt_succ_self _
  refine ⟨?_, fun x member => ?_⟩
  · apply EhTable.SlotsNamed.set (t := { acc.table with regions := acc.table.regions ++ [region] })
    · exact slots.mono (by simp) rfl
    · simp
  · simp only [EhSlots.addRegion, Array.toList_append, List.mem_append, List.length_append,
      List.length_singleton] at member ⊢
    rcases member with old | new
    · exact Nat.lt_succ_of_lt (aliases x old)
    · obtain ⟨n, -, rfl⟩ := by simpa using new
      exact grows

theorem readSlotBody_named (slot : Nat) (acc : EhSlots) (tag : Nat) :
    ⦃fun _ => ⌜acc.Named⌝⦄ readSlotBody slot acc tag ⦃yields EhSlots.Named⦄ := by
  mvcgen [readSlotBody, onCursor_any, readRegion_any, fail]
  exact EhSlots.Named.addRegion (by assumption) _ _ _

theorem readSlots_named (count k : Nat) (acc : EhSlots) :
    ⦃fun _ => ⌜acc.Named⌝⦄ readSlots count k acc ⦃yields EhSlots.Named⦄ := by
  induction k generalizing acc with
  | zero => mvcgen [readSlots]
  | succ k ih =>
    rw [readSlots_succ]
    mvcgen [readSlot, readSlotBody_named, ih, onCursor_any]

theorem linkPending_named (count : Nat) (lookup : Int → Option RegionId) (pending : PendingLinks)
    (t : EhTable) :
    ⦃fun _ => ⌜t.SlotsNamed⌝⦄ linkPending count lookup pending t ⦃yields EhTable.SlotsNamed⦄ := by
  mvcgen [linkPending, fail]
  -- setting a link rewrites one region and leaves the slots alone
  case inv1 => exact post⟨fun x _ => ⌜x.2.1.SlotsNamed⌝, fun _ _ => ⌜True⌝⟩
  all_goals grind [EhTable.SlotsNamed.modifyRegion]

theorem resolveSlots_named (count : Nat) (root : Int64) (acc : EhSlots) :
    ⦃fun _ => ⌜acc.Named⌝⦄ resolveSlots count root acc ⦃yields EhTable.SlotsNamed⦄ := by
  mvcgen [resolveSlots, fail, linkPending_named]
  -- the aliases point their slots at regions already read; the shared slots are only checked
  case inv1 =>
    exact post⟨fun x _ => ⌜x.2.SlotsNamed ∧ x.2.regions = acc.table.regions⌝, fun _ _ => ⌜True⌝⟩
  case inv2 => exact post⟨fun _ _ => ⌜True⌝, fun _ _ => ⌜True⌝⟩
  all_goals dsimp only at *
  all_goals grind [EhTable.SlotsNamed.set, EhTable.SlotsNamed.mono, EhSlots.Named]

/-- Every slot of a table read from a stream names one of the regions read. -/
theorem readEhTable_named : ⦃fun _ => ⌜True⌝⦄ readEhTable ⦃yields EhTable.SlotsNamed⦄ := by
  rw [readEhTable_eq]
  mvcgen [onCursor_any, readSlots_named, resolveSlots_named, fail]
  -- the slots start empty and no alias is noted yet
  refine ⟨fun s id found => ?_, fun x member => by simp at member⟩
  simp [List.getElem?_replicate] at found

end ReadM

/-! ### The tables of the `eh_ops` request -/

namespace Service

theorem regionIn_live {count : Nat} {message : Nat → String} {d : Doc} {r : Option RegionId}
    (read : regionIn count message d = .ok r) : ∀ id ∈ r, id.val < count := by
  unfold regionIn at read
  obtain ⟨ref, -, rest⟩ := Except.exists_of_bind_eq_ok read
  intro id member
  cases ref with
  | none =>
    cases rest
    cases member
  | some found =>
    simp only at rest
    split_ifs at rest with inside
    · cases rest
      cases member
      exact inside
    · cases rest

theorem requiredRegion_live {t : EhTable} {what : String} {d : Doc} {r : RegionId}
    (read : requiredRegion t what d = .ok r) : r.val < t.regions.length := by
  unfold requiredRegion at read
  repeat' split at read
  all_goals simp_all [refuse, throwThe, MonadExceptOf.throw, bind, Except.bind, pure, Except.pure]
  -- what is left is the range check that every way of giving the index ends in
  all_goals
    split_ifs at read with _ inside
    cases read
    exact inside

/-- Every step of an `eh_ops` request keeps the slots naming regions: a new
region's slot names it, and an alias, a pushed slot or a root must name a
region of the table. -/
theorem ehStep_named {t t' : EhTable} {step answer : Doc} (named : t.SlotsNamed)
    (stepped : ehStep t step = .ok (answer, t')) : t'.SlotsNamed := by
  unfold ehStep at stepped
  split at stepped
  case h_1 =>
    obtain ⟨kind, -, rest⟩ := Except.exists_of_bind_eq_ok stepped
    obtain ⟨outer, -, rest⟩ := Except.exists_of_bind_eq_ok rest
    cases rest
    exact named.addRegion kind outer
  case h_2 =>
    obtain ⟨target, read, rest⟩ := Except.exists_of_bind_eq_ok stepped
    cases rest
    exact named.addAlias (requiredRegion_live read)
  case h_3 =>
    split at stepped
    · obtain ⟨r, -, rest⟩ := Except.exists_of_bind_eq_ok stepped
      obtain ⟨kind, -, rest⟩ := Except.exists_of_bind_eq_ok rest
      cases rest
      exact named.modifyRegion _ _
    · cases stepped
  case h_4 =>
    obtain ⟨r, -, rest⟩ := Except.exists_of_bind_eq_ok stepped
    cases rest
    exact named.modifyRegion _ _
  case h_5 =>
    obtain ⟨entry, read, rest⟩ := Except.exists_of_bind_eq_ok stepped
    cases rest
    exact named.push le_rfl rfl (regionIn_live read)
  case h_6 | h_7 | h_8 =>
    obtain ⟨_, -, rest⟩ := Except.exists_of_bind_eq_ok stepped
    cases rest
    exact named
  case h_9 =>
    cases stepped
    exact named
  case h_10 | h_11 => cases stepped

end Service

/-! ### The lookups of `verify` and of the writer -/

/-- The region lookups of `verify` and of the writer, and when they stay
inside a table. Every table the program makes names a region in each slot:
one built by adding regions and aliases, one read from a stream, and one an
`eh_ops` request builds step by step. `verify` stops on its unchecked lookup
only at a slot naming a region past the end of the table, so never on such a
table; and once `verify` accepts a table, every lookup of the writer finds its
region: the region of each slot, the root and each link of those regions. -/
theorem verified_table_lookups_in_range (t : EhTable) :
    (t.Reachable → t.SlotsNamed) ∧
    (∀ s s' : TreeReader, ReadM.readEhTable.run s = .ok t s' → t.SlotsNamed) ∧
    (∀ (t₀ : EhTable) (step answer : Doc), t₀.SlotsNamed →
      Service.ehStep t₀ step = .ok (answer, t) → t.SlotsNamed) ∧
    (∀ (slot : UInt32) (index len : Nat), t.verify = .error (.ehSlotOutOfRange slot index len) →
      ∃ k : Nat, k.toUInt32 = slot ∧ t.slots[k]? = some (some ⟨index⟩) ∧
        t.regions.length ≤ index) ∧
    (t.SlotsNamed →
      ∀ (slot : UInt32) (index len : Nat), t.verify ≠ .error (.ehSlotOutOfRange slot index len)) ∧
    (t.verify = .ok () →
      (∀ (k : Nat) (id : RegionId), t.slots[k]? = some (some id) →
        t.region? id = some (t.regionOf id)) ∧
      (∀ id ∈ t.root, t.region? id = some (t.regionOf id)) ∧
      ∀ (k : Nat) (id : RegionId), t.slots[k]? = some (some id) →
        ∀ l ∈ [(t.regionOf id).outer, (t.regionOf id).inner, (t.regionOf id).nextPeer] ++
            (t.regionOf id).kind.links,
          ∀ target ∈ l, t.region? target = some (t.regionOf target)) := by
  refine ⟨fun reach k id named => reach.wellFormed.numbered.slot_lt named,
    fun s s' run => (triple_run ReadM.readEhTable_named trivial run).1 t s' rfl,
    fun t₀ step answer named stepped => Service.ehStep_named named stepped,
    fun _ _ _ stopped => EhTable.verify_slotOutOfRange stopped, ?_, ?_⟩
  · -- a slot naming a region keeps the lookup inside the table
    intro named slot index len stopped
    obtain ⟨k, -, slotted, past⟩ := EhTable.verify_slotOutOfRange stopped
    exact absurd (named k ⟨index⟩ slotted) (Nat.not_lt.2 past)
  · intro verified
    obtain ⟨clean, rootIn, slotsClean⟩ := EhTable.verify_eq_ok verified
    have named := EhTable.slotsNamed_of_firstMismatch slotsClean
    refine ⟨fun k id slot => EhTable.region?_eq_regionOf (named k id slot),
      EhTable.region?_of_inRange rootIn, ?_⟩
    intro k id slot l member
    have found : t.regions[id.val]? = some (t.regionOf id) :=
      EhTable.region?_eq_regionOf (named k id slot)
    exact EhTable.region?_of_inRange (EhTable.inRange_of_verify verified found l member)

-- a slot naming a region of an empty table stops `verify`
example : ({ slots := [some ⟨0⟩] } : EhTable).verify = .error (.ehSlotOutOfRange 0 0 0) := by
  decide

/-- A try region with an aliased handler and a cleanup after it: every slot
names a region, `verify` accepts it, and every lookup of the writer finds its
region. -/
theorem tryCatchAliased_lookups_in_range :
    EhTable.tryCatchAliased.SlotsNamed ∧ EhTable.tryCatchAliased.verify = .ok () ∧
      ∀ id ∈ EhTable.tryCatchAliased.root,
        EhTable.tryCatchAliased.region? id = some (EhTable.tryCatchAliased.regionOf id) :=
  ⟨EhTable.tryCatchAliased_streamable.named, EhTable.tryCatchAliased_streamable.verified,
    ((verified_table_lookups_in_range EhTable.tryCatchAliased).2.2.2.2.2
      EhTable.tryCatchAliased_streamable.verified).2.1⟩

end IrStream
