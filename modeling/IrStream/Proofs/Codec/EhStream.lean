import Mathlib
import IrStream.Proofs.Codec.EhRebuild
import IrStream.Proofs.Codec.DeclsRoundTrip

/-!
An exception-region table written and read back. The writer appends the
table's tag, its last region number, its root's number, the slot count and one
record per slot (`WriteM.writeEhTable_eq` names the records `WriteM.writeSlot`,
`WriteM.writeRegion` and `WriteM.writeKind`); the reader takes the records one
by one (`ReadM.readSlots_succ`, `ReadM.readSlot`, `ReadM.readRegion_eq`).

Each record is read in step with its writer (`TreeCodec.slot_step`): a region
record gives the region with its links cleared and the links noted, and its
trees stand for the written ones (`TreeCodec.RegionAgrees`). Over all the slots
the reader's state stands for the one `EhTable.staged` gives on the written
table (`TreeCodec.SlotsAgree`, `TreeCodec.slots_step`); the resolution of
`EhRebuild` then sets every link and alias, and what it returns stands for the
written table (`TreeCodec.resolveSlots_agrees`, `TreeCodec.table_step`).
`TreeCodec.read_write_ehTable` puts it together: a table whose trees are tree
roots of a canonical program, written outside a function body, is read back
over exactly its bytes as the written table with its trees renamed
(`TreeCodec.TableAgrees`).
-/

namespace IrStream

namespace WriteM

/-- The kind's part of a region record: its catch links and its trees. -/
def writeKind (eh : EhTable) (out : ByteArray) : EhKind → WriteM ByteArray
  | .cleanup | .mustNotThrow => return out
  | .tryBlock f l => return Out.uleb (Out.uleb out (eh.linkNumber f)) (eh.linkNumber l)
  | .catchBlock n p t fl => do
    writeTree (← writeTree (Out.uleb (Out.uleb out (eh.linkNumber n)) (eh.linkNumber p)) t) fl
  | .allowedExceptions t filter => return Out.uleb (← writeTree out t) filter.toUInt64
  | .throwType ty => writeTree out ty

/-- A region record after its tag. -/
def writeRegion (eh : EhTable) (out : ByteArray) (r : EhRegion) : WriteM ByteArray := do
  let out := Out.uleb (Out.uleb out r.number.toUInt64) r.aka.length.toUInt64
  let out := r.aka.foldl (fun out a => Out.uleb out a.toUInt64) out
  let out := Out.uleb (Out.uleb (Out.uleb out (eh.linkNumber r.outer)) (eh.linkNumber r.inner))
    (eh.linkNumber r.nextPeer)
  writeKind eh (← writeTree out r.label) r.kind

/-- One slot record: a hole, a shared slot naming its owner's number, or the
region whose number is the slot. -/
def writeSlot (eh : EhTable) (out : ByteArray) : Option RegionId × Nat → WriteM ByteArray
  | (none, _) => return Out.u8 out Tag.null.toUInt8
  | (some id, slot) =>
    let r := eh.regionOf id
    if r.number.toNat != slot then
      return Out.uleb (Out.u8 out Tag.ehShared.toUInt8) r.number.toUInt64
    else writeRegion eh (Out.u8 out r.tag.toUInt8) r

theorem writeEhTable_eq (out : ByteArray) (eh : EhTable) :
    writeEhTable out eh = do
      let out := Out.sleb (Out.uleb (Out.u8 out Tag.ehTable.toUInt8) eh.lastRegionNumber.toUInt64)
        eh.rootNumber
      let out ← eh.slots.zipIdx.foldlM (writeSlot eh) (Out.uleb out eh.slots.length.toUInt64)
      return Out.u8 out Tag.null.toUInt8 := by
  unfold writeEhTable
  refine congrArg (fun m => m >>= fun out => pure (Out.u8 out Tag.null.toUInt8)) ?_
  refine congrArg₂ (fun f init => List.foldlM f init eh.slots.zipIdx) ?_ ?_
  · funext out x
    obtain ⟨entry, slot⟩ := x
    cases entry with
    | none => rfl
    | some id =>
      simp only [writeSlot, writeRegion, EhTable.regionOf]
      split
      · next shared => simp only [shared, ↓reduceIte]
      · next home =>
        simp only [home, Bool.false_eq_true, ↓reduceIte]
        cases ((eh.region? id).getD { number := 0, kind := .cleanup }).kind <;> rfl
  · unfold EhTable.rootNumber EhTable.regionOf
    cases eh.root <;> rfl

end WriteM

namespace ReadM

/-- The kind's part of a region record: its catch links noted, its trees read. -/
def readKind (variant : Nat) (id : RegionId) (pending : PendingLinks) : ReadM (EhKind × PendingLinks) :=
  match variant with
    | 0 => pure (EhKind.cleanup, pending)
    | 1 => do
      let pending ← deferLink id .firstCatch pending
      let pending ← deferLink id .lastCatch pending
      pure (.tryBlock none none, pending)
    | 2 => do
      let pending ← deferLink id .nextCatch pending
      let pending ← deferLink id .prevCatch pending
      let typeList ← readTree
      let filterList ← readTree
      pure (.catchBlock none none typeList filterList, pending)
    | 3 => do
      let typeList ← readTree
      let filter ← onCursor CursorM.readU32
      pure (.allowedExceptions typeList filter, pending)
    | 4 => pure (.mustNotThrow, pending)
    | _ => do pure (.throwType (← readTree), pending)

theorem readRegion_eq (variant : Nat) (id : RegionId) (pending : PendingLinks) :
    readRegion variant id pending = (do
      let number ← onCursor CursorM.readU32
      let aka ← (do readCount (← onCursor CursorM.readUleb).toNat (onCursor CursorM.readU32))
      let pending ← deferLink id .outer pending
      let pending ← deferLink id .inner pending
      let pending ← deferLink id .nextPeer pending
      let label ← readTree
      let (kind, pending) ← readKind (variant / 2) id pending
      let aka := aka.foldl (fun acc a => insertAscending a acc) []
      return ({ number, mayContainThrow := variant % 2 == 1, aka, label, kind }, pending)) := by
  unfold readRegion readKind
  simp only [bind_assoc]
  generalize variant / 2 = v
  rcases v with _ | _ | _ | _ | _ | v <;> simp only [bind_assoc, pure_bind]

/-- A slot record after its tag: a hole, a shared slot's owner number, or a
region that must sit in the slot of its own number. -/
def readSlotBody (slot : Nat) (acc : EhSlots) (tag : Nat) : ReadM EhSlots :=
  if tag == Tag.null then pure acc
  else if tag == Tag.ehShared then do
    let owner ← onCursor CursorM.readU32
    pure { acc with shared := acc.shared.push (slot, owner) }
  else if Tag.ehRegion ≤ tag && tag < Tag.ehRegion + 2 * EhKind.count then do
    let id : RegionId := ⟨acc.table.regions.length⟩
    let (region, pending) ← readRegion (tag - Tag.ehRegion) id acc.pending
    if region.number.toNat != slot then
      fail (.consistency s!"EH region {region.number} stored in slot {slot}")
    pure (acc.addRegion slot region pending)
  else fail (.unknownTag tag.toUInt64 "eh region")

/-- One slot record, read into the reader's state. -/
def readSlot (slot : Nat) (acc : EhSlots) : ReadM EhSlots := do
  readSlotBody slot acc (← onCursor CursorM.readU8).toNat

theorem readSlots_succ (count k : Nat) (acc : EhSlots) :
    readSlots count (k + 1) acc = readSlot (count - (k + 1)) acc >>= readSlots count k := by
  simp only [readSlots, readSlot, readSlotBody, EhSlots.addRegion, bind_assoc]
  congr 1
  funext b
  split_ifs
  · exact (pure_bind _ _).symm
  · simp only [bind_assoc, pure_bind]
  · simp only [bind_assoc]
    congr 1
    funext x
    split_ifs <;> simp only [bind_assoc, pure_bind]
  · rfl

instance : Inhabited EhSlots := ⟨{ table := {} }⟩

/-- A reader that only returns a value determines it: run from any state, it
hands the value back. -/
theorem pure_injective {α : Type} {a b : α} (same : (pure a : ReadM α) = pure b) : a = b := by
  have run := congrFun same default
  simp only [pure, EStateM.pure, EStateM.Result.ok.injEq] at run
  exact run.1

end ReadM

/-! ### Aliases, link numbers and tags as written -/

theorem insertAscending_of_lt {x : UInt32} : ∀ {l : List UInt32}, (∀ y ∈ l, y < x) →
    insertAscending x l = l ++ [x]
  | [], _ => rfl
  | y :: ys, below => by
    have lt := UInt32.lt_iff_toNat_lt.1 (below y List.mem_cons_self)
    have notLt : ¬ x < y := fun h => by have := UInt32.lt_iff_toNat_lt.1 h; omega
    have differ : (x == y) = false := by
      rw [beq_eq_false_iff_ne]
      intro same
      rw [same] at lt
      omega
    rw [insertAscending, if_neg notLt, differ, if_neg Bool.false_ne_true,
      insertAscending_of_lt fun z member => below z (List.mem_cons_of_mem _ member)]
    rfl

/-- Inserting the entries of an ascending list one by one gives the list back. -/
theorem foldl_insertAscending : ∀ (l acc : List UInt32), (acc ++ l).Pairwise (· < ·) →
    l.foldl (fun acc a => insertAscending a acc) acc = acc ++ l
  | [], acc, _ => by simp
  | x :: l, acc, sorted => by
    have below : ∀ y ∈ acc, y < x := fun y member =>
      (List.pairwise_append.1 sorted).2.2 y member x List.mem_cons_self
    rw [List.foldl_cons, insertAscending_of_lt below,
      foldl_insertAscending l (acc ++ [x]) (by simpa using sorted)]
    simp

namespace EhTable

/-- A set link is written as its target's number plus one: never zero, and one
less is the number. -/
theorem linkNumber_some (eh : EhTable) (target : RegionId) :
    (eh.linkNumber (some target) == 0) = false ∧
      (eh.linkNumber (some target)).toInt64.toInt - 1 = (eh.regionOf target).number.toNat := by
  have small : (eh.regionOf target).number.toNat < 2 ^ 32 := UInt32.toNat_lt _
  have value : (eh.linkNumber (some target)).toNat = (eh.regionOf target).number.toNat + 1 := by
    simp only [linkNumber, UInt64.toNat_add, UInt32.toNat_toUInt64, UInt64.toNat_one]
    omega
  have wide : (2 : Nat) ^ 32 < UInt64.size := by decide
  have widened : eh.linkNumber (some target) = UInt64.ofNat ((eh.regionOf target).number.toNat + 1) :=
    UInt64.toNat_inj.1 (by rw [value, UInt64.toNat_ofNat_of_lt' (by omega)])
  refine ⟨?_, ?_⟩
  · rw [beq_eq_false_iff_ne]
    intro zero
    rw [zero] at value
    simp at value
  · rw [widened, UInt64.toInt64_ofNat', Int64.toInt_ofNat_of_lt (by omega)]
    omega

/-- What the reader does with one link of region `id`: a set link is noted
with its target's number. -/
def noteLink (eh : EhTable) (id : RegionId) (pending : ReadM.PendingLinks) :
    RegionLink × Option RegionId → ReadM.PendingLinks
  | (link, some target) => pending.push (id, link, ((eh.regionOf target).number.toNat : Int))
  | (_, none) => pending

theorem toList_foldl_noteLink (eh : EhTable) (id : RegionId) :
    ∀ (links : List (RegionLink × Option RegionId)) (pending : ReadM.PendingLinks),
      (links.foldl (eh.noteLink id) pending).toList =
        pending.toList ++ links.filterMap fun (link, target) =>
          target.map fun t => (id, link, ((eh.regionOf t).number.toNat : Int))
  | [], pending => by simp
  | (link, target) :: links, pending => by
    rw [List.foldl_cons, toList_foldl_noteLink eh id links]
    cases target <;> simp [noteLink]

end EhTable

namespace EhKind

theorem ordinal_lt (k : EhKind) : k.ordinal < count := by
  cases k <;> simp [ordinal, count]

end EhKind

namespace EhRegion

/-- The tag a region record starts with: in the range of region tags, the
variant's half the kind's ordinal and its low bit whether the region may throw. -/
theorem tag_facts (r : EhRegion) :
    r.tag.toUInt8.toNat = r.tag ∧ Tag.ehRegion ≤ r.tag ∧ r.tag < Tag.ehRegion + 2 * EhKind.count ∧
      (r.tag - Tag.ehRegion) / 2 = r.kind.ordinal ∧
      ((r.tag - Tag.ehRegion) % 2 == 1) = r.mayContainThrow := by
  have below := r.kind.ordinal_lt
  simp only [tag, EhKind.count, Tag.ehRegion] at below ⊢
  cases r.mayContainThrow <;> simp <;> omega

end EhRegion

namespace TreeCodec

section Agreement

variable {τ τ' : List NodeId}

/-- A region read stands for a written one under `τ`: its trees are known to
`τ`, and renamed they give the written region. -/
def RegionAgrees (τ : List NodeId) (region written : EhRegion) : Prop :=
  (∀ x ∈ region.trees, Known τ x) ∧ region.mapTrees (image τ) = written

/-- The reader's state stands for `v` under `τ`: the trees of its regions are
known to `τ`, and renamed they give `v`. -/
def SlotsAgree (τ : List NodeId) (acc v : ReadM.EhSlots) : Prop :=
  (∀ r ∈ acc.table.regions, ∀ x ∈ r.trees, Known τ x) ∧ acc.mapTrees (image τ) = v

/-- Renaming by a longer map changes no tree the shorter one knows. -/
theorem mapTrees_image_of_isPrefix (grown : τ <+: τ') {t : EhTable}
    (known : ∀ r ∈ t.regions, ∀ x ∈ r.trees, Known τ x) : t.mapTrees (image τ') = t.mapTrees (image τ) :=
  EhTable.mapTrees_congr fun r member x tree => map_image_of_isPrefix grown (known r member x tree)

theorem SlotsAgree.mono (grown : τ <+: τ') {acc v : ReadM.EhSlots} (agrees : SlotsAgree τ acc v) :
    SlotsAgree τ' acc v := by
  refine ⟨fun r member x tree => (agrees.1 r member x tree).mono grown, ?_⟩
  rw [← agrees.2]
  simp only [ReadM.EhSlots.mapTrees, mapTrees_image_of_isPrefix grown agrees.1]

/-- A region read into the reader's state: if the region stands for `r`, the
new state stands for the view with `r` added. -/
theorem SlotsAgree.addRegion {acc v : ReadM.EhSlots} (agrees : SlotsAgree τ acc v) {region r : EhRegion}
    (agreesR : RegionAgrees τ region r) (slot : Nat) (pending : ReadM.PendingLinks) :
    SlotsAgree τ (acc.addRegion slot region pending) (v.addRegion slot r pending) := by
  obtain ⟨known, rfl⟩ := agrees
  obtain ⟨knownR, rfl⟩ := agreesR
  refine ⟨fun r' member x tree => ?_, ?_⟩
  · rcases List.mem_append.1 member with member | single
    · exact known r' member x tree
    · rw [List.mem_singleton.1 single] at tree
      exact knownR x tree
  · simp [ReadM.EhSlots.addRegion, ReadM.EhSlots.mapTrees, EhTable.mapTrees, EhRegion.mapTrees]

/-- A region read in the slot of its number, its links noted: if the reader's
state stood for `v`, the new state stands for the view of that slot. -/
theorem SlotsAgree.addHome {eh : EhTable} {acc v : ReadM.EhSlots} (agrees : SlotsAgree τ acc v)
    {id : RegionId} {s : Nat} (home : (eh.regionOf id).number.toNat = s) {region : EhRegion}
    (agreesR : RegionAgrees τ region (eh.regionOf id).unlinked) :
    SlotsAgree τ (acc.addRegion s region
        ((eh.regionOf id).links.foldl (eh.noteLink ⟨acc.table.regions.length⟩) acc.pending))
      (eh.slotView v (some id, s)) := by
  have length : v.table.regions.length = acc.table.regions.length := by
    rw [← agrees.2]
    simp [ReadM.EhSlots.mapTrees, EhTable.mapTrees]
  have before : v.pending = acc.pending := by
    rw [← agrees.2]
    rfl
  have noted : (eh.regionOf id).links.foldl (eh.noteLink ⟨acc.table.regions.length⟩) acc.pending =
      acc.pending ++ (eh.pendingLinks ⟨acc.table.regions.length⟩ (eh.regionOf id)).toArray :=
    Array.toList_inj.1 (by simp [EhTable.toList_foldl_noteLink, EhTable.pendingLinks])
  simp only [EhTable.slotView, home, if_true, length, before, ← noted]
  exact agrees.addRegion agreesR s _

/-- A table read stands for a written one under `τ`: the trees of its regions
are known to `τ`, and renamed they give the written table. -/
def TableAgrees (τ : List NodeId) (t written : EhTable) : Prop :=
  (∀ r ∈ t.regions, ∀ x ∈ r.trees, Known τ x) ∧ t.mapTrees (image τ) = written

theorem TableAgrees.mono (grown : τ <+: τ') {t written : EhTable} (agrees : TableAgrees τ t written) :
    TableAgrees τ' t written := by
  refine ⟨fun r member x tree => (agrees.1 r member x tree).mono grown, ?_⟩
  rw [← agrees.2]
  exact mapTrees_image_of_isPrefix grown agrees.1

end Agreement

section Records

variable {P : Program} {roots : List NodeId} {S : ByteArray} {fuel : Nat} {ok : TreeWriter → Prop}

/-- A link is written as its target's number plus one, and the reader notes it. -/
theorem deferLink_step (eh : EhTable) (id : RegionId) (pending : ReadM.PendingLinks)
    (link : RegionLink) (target : Option RegionId) (W : TreeWriter) :
    Step P roots S fuel W (fun out => pure (Out.uleb out (eh.linkNumber target)))
      (ReadM.deferLink id link pending) (fun _ p => p = eh.noteLink id pending (link, target))
      (Leb128.ofUInt64 (eh.linkNumber target)) W := by
  unfold ReadM.deferLink
  refine Step.bind_pure_of_eq (Step.uleb _ W) ?_
  cases target with
  | none => rfl
  | some t =>
    obtain ⟨nonzero, value⟩ := eh.linkNumber_some t
    simp only [nonzero, value, Bool.false_eq_true, if_false]
    rfl

/-- A count and that many 32-bit numbers, read back as the list. -/
theorem scalars_step (xs : List UInt32) (W : TreeWriter) :
    ∃ bs W', Step P roots S fuel W
      (fun out => xs.foldlM (fun out a => pure (Out.uleb out a.toUInt64)) (Out.uleb out xs.length.toUInt64))
      (do ReadM.readCount (← ReadM.onCursor CursorM.readUleb).toNat (ReadM.onCursor CursorM.readU32))
      (fun _ vs => vs = xs) bs W' := by
  obtain ⟨bs, W', long, items⟩ := (list_step (fun (_ : True) _ => trivial) xs
    (fun a _ W _ => ⟨_, W, List.length_pos_of_ne_nil (Leb128.unsigned_ne_nil _), Step.scalar a W⟩) W trivial :
      ∃ bs W', xs.length ≤ bs.length ∧ Step P roots S fuel W _ _ _ bs W')
  exact ⟨_, W', (Step.counted long items).mono fun _ vs agrees => List.forall₂_eq_eq_eq ▸ agrees⟩

/-- A kind read stands for a written one under `τ`: its trees are known to `τ`,
and renamed they give the written kind with its catch links cleared. -/
def KindAgrees (τ : List NodeId) (kind written : EhKind) : Prop :=
  (∀ x ∈ kind.trees, Known τ x) ∧ kind.mapTrees (image τ) = written.unlinked

/-- The kind's part of a region record in step: its catch links noted, its
trees read back. -/
theorem kind_step (okGrows : ∀ {W W'}, ok W → Grows W W' → ok W') (eh : EhTable) (k : EhKind)
    (tree : ∀ x ∈ k.trees, Steps P roots S fuel ok (fun out x => WriteM.writeTree out x) ReadM.readTree
      Agrees x)
    {W : TreeWriter} (okW : ok W) :
    ∃ bs W', ∀ id pending, Step P roots S fuel W (WriteM.writeKind eh · k)
      (ReadM.readKind k.ordinal id pending)
      (fun τ v => KindAgrees τ v.1 k ∧ v.2 = k.linkFields.foldl (eh.noteLink id) pending) bs W' := by
  cases k with
  | cleanup =>
    exact ⟨[], W, fun _ _ => (Step.nil _ W).mono fun _ _ eq => by
      subst eq; exact ⟨⟨by simp [EhKind.trees], rfl⟩, rfl⟩⟩
  | mustNotThrow =>
    exact ⟨[], W, fun _ _ => (Step.nil _ W).mono fun _ _ eq => by
      subst eq; exact ⟨⟨by simp [EhKind.trees], rfl⟩, rfl⟩⟩
  | tryBlock f l =>
    simp only [EhKind.ordinal, ReadM.readKind, WriteM.writeKind]
    refine ⟨_, W, fun id pending => Step.congr_write (fun out => ?_)
      ((Step.bind_eq (deferLink_step eh id pending .firstCatch f W)
        (deferLink_step eh id _ .lastCatch l W).map).mono ?_)⟩
    · rfl
    · rintro τ v ⟨p, rfl, rfl⟩
      exact ⟨⟨by simp [EhKind.trees], rfl⟩, rfl⟩
  | catchBlock n p t fl =>
    simp only [EhKind.ordinal, ReadM.readKind, WriteM.writeKind]
    obtain ⟨bs₁, W₁, -, typeStep⟩ := tree t (by simp [EhKind.trees]) W okW
    obtain ⟨bs₂, W₂, -, filterStep⟩ := tree fl (by simp [EhKind.trees]) W₁ (okGrows okW typeStep.grows)
    refine ⟨_, W₂, fun id pending => Step.congr_write (fun out => ?_)
      ((Step.bind_eq (deferLink_step eh id pending .nextCatch n W)
        (Step.bind_eq (deferLink_step eh id _ .prevCatch p W)
          (typeStep.bind fun _ => filterStep.map))).mono ?_)⟩
    · simp
    · rintro τ v ⟨x, agreesT, y, agreesFl, rfl⟩
      refine ⟨⟨?_, ?_⟩, rfl⟩
      · simpa [EhKind.trees] using ⟨agreesT.1, agreesFl.1⟩
      · simp [EhKind.mapTrees, EhKind.unlinked, agreesT.2, agreesFl.2]
  | allowedExceptions t filter =>
    simp only [EhKind.ordinal, ReadM.readKind, WriteM.writeKind]
    obtain ⟨bs, W', -, typeStep⟩ := tree t (by simp [EhKind.trees]) W okW
    refine ⟨_, W', fun id pending => Step.congr_write (fun out => ?_)
      ((typeStep.bind fun _ => (Step.scalar filter W').map).mono ?_)⟩
    · simp
    · rintro τ v ⟨x, agrees, f', rfl, rfl⟩
      exact ⟨⟨by simpa [EhKind.trees] using agrees.1,
        by simp [EhKind.mapTrees, EhKind.unlinked, agrees.2]⟩, rfl⟩
  | throwType ty =>
    simp only [EhKind.ordinal, ReadM.readKind, WriteM.writeKind]
    obtain ⟨bs, W', -, step⟩ := tree ty (by simp [EhKind.trees]) W okW
    refine ⟨bs, W', fun id pending => Step.congr_write (fun out => ?_) (step.map.mono ?_)⟩
    · simp
    rintro τ v ⟨x, agrees, rfl⟩
    exact ⟨⟨by simpa [EhKind.trees] using agrees.1, by simp [EhKind.mapTrees, EhKind.unlinked, agrees.2]⟩, rfl⟩

/-- A region record after its tag in step: the region read stands for the
written one with its links cleared, and its links are noted. -/
theorem region_step (okGrows : ∀ {W W'}, ok W → Grows W W' → ok W') (eh : EhTable) (r : EhRegion)
    (ascending : r.aka.Pairwise (· < ·))
    (tree : ∀ x ∈ r.trees, Steps P roots S fuel ok (fun out x => WriteM.writeTree out x) ReadM.readTree
      Agrees x)
    {W : TreeWriter} (okW : ok W) :
    ∃ bs W', ∀ id pending, Step P roots S fuel W (WriteM.writeRegion eh · r)
      (ReadM.readRegion (r.tag - Tag.ehRegion) id pending)
      (fun τ v => RegionAgrees τ v.1 r.unlinked ∧ v.2 = r.links.foldl (eh.noteLink id) pending) bs W' := by
  obtain ⟨-, -, -, variant, throws⟩ := r.tag_facts
  obtain ⟨akaBytes, W₀, counted⟩ :=
    (scalars_step r.aka W : ∃ bs W', Step P roots S fuel W _ _ _ bs W')
  have okW₀ := okGrows okW counted.grows
  obtain ⟨bs₁, W₁, -, labelStep⟩ := tree r.label List.mem_cons_self W₀ okW₀
  obtain ⟨bs₂, W₂, kindStep⟩ := kind_step okGrows eh r.kind
    (fun x member => tree x (List.mem_cons_of_mem _ member)) (okGrows okW₀ labelStep.grows)
  simp only [ReadM.readRegion_eq, variant]
  refine ⟨_, W₂, fun id pending => Step.congr_write (fun out => ?_)
    ((Step.bind_eq (Step.scalar r.number W)
      (Step.bind_eq counted
        (Step.bind_eq (deferLink_step eh id pending .outer r.outer W₀)
          (Step.bind_eq (deferLink_step eh id _ .inner r.inner W₀)
            (Step.bind_eq (deferLink_step eh id _ .nextPeer r.nextPeer W₀)
              (labelStep.bind fun _ => (kindStep id _).map)))))).mono ?_)⟩
  · simp [WriteM.writeRegion, List.foldlM_pure]
  · rintro τ v ⟨label, agreesL, ⟨kind, p⟩, ⟨agreesK, rfl⟩, rfl⟩
    have aka := foldl_insertAscending r.aka [] (by simpa using ascending)
    rw [List.nil_append] at aka
    refine ⟨⟨?_, ?_⟩, ?_⟩
    · intro x member
      rcases List.mem_cons.1 member with rfl | member
      · exact agreesL.1
      · exact agreesK.1 x member
    · simp only [EhRegion.mapTrees, EhRegion.unlinked, throws, aka, agreesL.2, agreesK.2]
    · simp only [EhRegion.links, List.foldl_append, List.foldl_cons, List.foldl_nil]

/-- A region record after its tag, read as a slot's body: the tag is neither a
hole's nor a shared slot's, the region read carries the slot's number, and it
joins the reader's state with its links noted. -/
theorem regionBody_step {eh : EhTable} {r : EhRegion} {s : Nat} (home : r.number.toNat = s)
    {W W' : TreeWriter} {bs : List UInt8}
    (region : ∀ id pending, Step P roots S fuel W (WriteM.writeRegion eh · r)
      (ReadM.readRegion (r.tag - Tag.ehRegion) id pending)
      (fun τ v => RegionAgrees τ v.1 r.unlinked ∧ v.2 = r.links.foldl (eh.noteLink id) pending) bs W')
    (acc : ReadM.EhSlots) :
    Step P roots S fuel W (WriteM.writeRegion eh · r) (ReadM.readSlotBody s acc r.tag.toUInt8.toNat)
      (fun τ acc' => ∃ a : EhRegion × ReadM.PendingLinks,
        (RegionAgrees τ a.1 r.unlinked ∧
          a.2 = r.links.foldl (eh.noteLink ⟨acc.table.regions.length⟩) acc.pending) ∧
        acc' = acc.addRegion s a.1 a.2) bs W' := by
  obtain ⟨tagNat, low, high, -, -⟩ := r.tag_facts
  -- region tags lie above the hole's and the shared slot's
  have notNull : (r.tag == Tag.null) = false := by
    simp only [Tag.null, Tag.ehRegion, beq_eq_false_iff_ne] at low ⊢
    omega
  have notShared : (r.tag == Tag.ehShared) = false := by
    simp only [Tag.ehShared, Tag.ehRegion, beq_eq_false_iff_ne] at low ⊢
    omega
  rw [tagNat]
  simp only [ReadM.readSlotBody, notNull, notShared, low, high, decide_true, Bool.and_self,
    Bool.false_eq_true, if_false, if_true]
  refine Step.bind_pure_of_agrees (region ⟨acc.table.regions.length⟩ acc.pending) ?_
  rintro τ ⟨read, pending⟩ ⟨agreesR, -⟩
  -- renaming trees keeps the number, so the number check passes
  have number : read.number = r.number := by
    simpa [EhRegion.mapTrees, EhRegion.unlinked] using congrArg EhRegion.number agreesR.2
  simp [number, home]

/-- One slot record in step: if the reader's state stands for `v` before it,
it stands for the view of the slot after it. -/
theorem slot_step (okGrows : ∀ {W W'}, ok W → Grows W W' → ok W') {eh : EhTable} (streams : eh.Streamable)
    (tree : ∀ r ∈ eh.regions, ∀ x ∈ r.trees, Steps P roots S fuel ok (fun out x => WriteM.writeTree out x)
      ReadM.readTree Agrees x)
    {s : Nat} (inside : s < eh.slots.length) {W : TreeWriter} (okW : ok W) :
    ∃ bs W', 0 < bs.length ∧ ∀ acc v, Step P roots S fuel W (WriteM.writeSlot eh · (eh.slots[s], s))
      (ReadM.readSlot s acc)
      (fun τ acc' => SlotsAgree τ acc v → SlotsAgree τ acc' (eh.slotView v (eh.slots[s], s))) bs W' := by
  cases entry : eh.slots[s] with
  | none =>
    refine ⟨[Tag.null.toUInt8], W, by simp, fun acc v => ?_⟩
    have body : Step P roots S fuel W (fun out => pure out) (ReadM.readSlotBody s acc Tag.null)
        (fun _ acc' => acc' = acc) [] W := by
      simp only [ReadM.readSlotBody, beq_self_eq_true, if_true]
      exact Step.nil acc W
    refine Step.congr_write (fun out => ?_) ((Step.bind_eq (Step.u8 Tag.null.toUInt8 W) body).mono ?_)
    · rfl
    · rintro τ acc' rfl agrees
      exact agrees
  | some id =>
    have named := streams.named s id (by rw [List.getElem?_eq_getElem inside, entry])
    have member : eh.regionOf id ∈ eh.regions := by
      rw [EhTable.regionOf_eq (List.getElem?_eq_getElem named)]
      exact List.getElem_mem named
    by_cases home : (eh.regionOf id).number.toNat = s
    · -- the region itself, in the slot of its number
      obtain ⟨bs, W', regionStep⟩ := region_step okGrows eh (eh.regionOf id)
        (streams.ascending _ member) (tree _ member) okW
      refine ⟨(eh.regionOf id).tag.toUInt8 :: bs, W', by simp, fun acc v => ?_⟩
      refine Step.congr_write (fun out => ?_) ((Step.bind_eq (Step.u8 (eh.regionOf id).tag.toUInt8 W)
        (regionBody_step home regionStep acc)).mono ?_)
      · simp [WriteM.writeSlot, home]
      · rintro τ acc' ⟨⟨region, pending⟩, ⟨agreesR, rfl⟩, rfl⟩ agrees
        exact agrees.addHome home agreesR
    · -- a shared slot, naming its owner's number
      refine ⟨Tag.ehShared.toUInt8 :: Leb128.ofUInt64 (eh.regionOf id).number.toUInt64, W, by simp,
        fun acc v => ?_⟩
      have body : Step P roots S fuel W (fun out => pure (Out.uleb out (eh.regionOf id).number.toUInt64))
          (ReadM.readSlotBody s acc Tag.ehShared)
          (fun _ acc' => acc' = { acc with shared := acc.shared.push (s, (eh.regionOf id).number) })
          (Leb128.ofUInt64 (eh.regionOf id).number.toUInt64) W := by
        simp only [ReadM.readSlotBody, Tag.ehShared, Tag.null]
        refine (Step.scalar _ W).map.mono fun _ _ read => ?_
        obtain ⟨_, same, next⟩ := read
        rw [next, same]
      refine Step.congr_write (fun out => ?_)
        ((Step.bind_eq (Step.u8 Tag.ehShared.toUInt8 W) body).mono ?_)
      · simp [WriteM.writeSlot, home]
      · rintro τ acc' rfl ⟨known, renamed⟩
        subst renamed
        exact ⟨known, by simp [EhTable.slotView, home, ReadM.EhSlots.mapTrees]⟩

/-- The slot records from slot `s` on, in step: if the reader's state stands
for the view after the first `s` slots, the state after all of them stands for
the view after every slot. The induction is on the slots still to read. -/
theorem slots_step (okGrows : ∀ {W W'}, ok W → Grows W W' → ok W') {eh : EhTable} (streams : eh.Streamable)
    (tree : ∀ r ∈ eh.regions, ∀ x ∈ r.trees, Steps P roots S fuel ok (fun out x => WriteM.writeTree out x)
      ReadM.readTree Agrees x) :
    ∀ k s, s + k = eh.slots.length → ∀ W, ok W → ∃ bs W', k ≤ bs.length ∧ ∀ acc,
      Step P roots S fuel W (fun out => (eh.slots.zipIdx.drop s).foldlM (WriteM.writeSlot eh) out)
        (ReadM.readSlots eh.slots.length k acc)
        (fun τ final => SlotsAgree τ acc (eh.staged s) → SlotsAgree τ final (eh.staged eh.slots.length))
        bs W'
  | 0, s, total, W, _ => by
    refine ⟨[], W, le_rfl, fun acc => ?_⟩
    have none : eh.slots.zipIdx.drop s = [] := List.drop_eq_nil_of_le (by simp; omega)
    rw [none]
    exact (Step.nil acc W).mono fun τ final same agrees => by
      rw [same, ← total, Nat.add_zero]
      exact agrees
  | k + 1, s, total, W, okW => by
    have inside : s < eh.slots.length := by omega
    obtain ⟨bs₁, W₁, long₁, first⟩ := slot_step okGrows streams tree inside okW
    obtain ⟨bs₂, W₂, long₂, rest⟩ := slots_step okGrows streams tree k (s + 1) (by omega) W₁
      (okGrows okW (first default default).grows)
    refine ⟨bs₁ ++ bs₂, W₂, by simp only [List.length_append]; omega, fun acc => ?_⟩
    have drop : eh.slots.zipIdx.drop s = (eh.slots[s], s) :: eh.slots.zipIdx.drop (s + 1) := by
      rw [List.drop_eq_getElem_cons (by simpa using inside), List.getElem_zipIdx, Nat.zero_add]
    have slot : eh.slots.length - (k + 1) = s := by omega
    rw [drop, ReadM.readSlots_succ, slot]
    refine Step.congr_write (fun out => List.foldlM_cons ..)
      (((first acc (eh.staged s)).bind fun acc' => rest acc').mono ?_)
    rintro τ final ⟨acc', one, more⟩ agrees
    exact more (by rw [EhTable.staged_succ eh inside]; exact one agrees)

/-- What the resolution returns on a state that stands for the view after every
slot stands for the written table. -/
theorem resolveSlots_agrees {eh : EhTable} (streams : eh.Streamable) {acc : ReadM.EhSlots} {t : EhTable}
    {τ : List NodeId} (run : ReadM.resolveSlots eh.slots.length eh.rootNumber acc = pure t)
    (agrees : SlotsAgree τ acc (eh.staged eh.slots.length)) : TableAgrees τ t eh := by
  obtain ⟨t', run', renamed, trees⟩ := EhTable.resolveSlots_eq streams (image τ) agrees.2
  obtain rfl := ReadM.pure_injective (run'.symm.trans run)
  refine ⟨fun r member x tree => ?_, renamed⟩
  obtain ⟨r', member', same⟩ : ∃ r' ∈ acc.table.regions, r'.trees = r.trees := by
    rw [← List.mem_map, ← trees]
    exact List.mem_map_of_mem member
  exact agrees.1 r' member' x (same ▸ tree)

/-- The table after its tag, in step: the slot records from the empty state,
then the terminator and the resolution, return a table that stands for the
written one. -/
theorem table_step (okGrows : ∀ {W W'}, ok W → Grows W W' → ok W') {eh : EhTable} (streams : eh.Streamable)
    (tree : ∀ r ∈ eh.regions, ∀ x ∈ r.trees, Steps P roots S fuel ok (fun out x => WriteM.writeTree out x)
      ReadM.readTree Agrees x)
    {W : TreeWriter} (okW : ok W) :
    ∃ bs W', Step P roots S fuel W (fun out => do
        let out ← eh.slots.zipIdx.foldlM (WriteM.writeSlot eh)
          (Out.uleb (Out.sleb (Out.uleb out eh.lastRegionNumber.toUInt64) eh.rootNumber)
            eh.slots.length.toUInt64)
        return Out.u8 out Tag.null.toUInt8)
      ReadM.readEhTable (fun τ t => TableAgrees τ t eh) bs W' := by
  obtain ⟨bs, W', long, slots⟩ := slots_step okGrows streams tree eh.slots.length 0 (Nat.zero_add _) W okW
  have value : eh.slots.length.toUInt32.toUInt64.toNat = eh.slots.length := by
    rw [UInt32.toNat_toUInt64, Leb128.toNat_toUInt32 streams.fits]
  have widened : eh.slots.length.toUInt32.toUInt64 = eh.slots.length.toUInt64 :=
    Leb128.toUInt64_toUInt32 streams.fits
  have started : ∀ τ, SlotsAgree τ eh.start (eh.staged 0) := fun τ =>
    ⟨by simp [EhTable.start], by simp [EhTable.staged, ReadM.EhSlots.mapTrees, EhTable.mapTrees, EhTable.start]⟩
  rw [ReadM.readEhTable_eq]
  refine ⟨_, W', Step.congr_write (fun out => ?_)
    ((Step.bind_eq (Step.scalar eh.lastRegionNumber W) <| Step.bind_eq (Step.sleb eh.rootNumber W) <|
      Step.bind_eq (Step.scalar eh.slots.length.toUInt32 W) <|
      Step.checkCount_bind value (by simp only [List.length_append]; omega) <|
      Step.bind_of_agrees
        (B := fun acc τ t => SlotsAgree τ acc (eh.staged eh.slots.length) → TableAgrees τ t eh)
        ((slots eh.start).mono fun τ final more => more (started τ))
        (Writes.append (Bytes.u8_data · Tag.null.toUInt8) W') (Grows.refl W') ?_).mono ?_)⟩
  · simp only [pure_bind, List.drop_zero, widened]
  · intro acc τ agrees opens
    obtain ⟨t, run, -, -⟩ := EhTable.resolveSlots_eq streams (image τ) agrees.2
    refine ((ReadsBack.onCursor fun c rest ahead => CursorM.readU8_of_ahead ahead).bind_pure_of_eq
      ?_).mono fun τ' v same agrees' => same ▸ resolveSlots_agrees streams run agrees'
    simp [Tag.null, run]
  · rintro τ t ⟨acc, agrees, resolved⟩
    exact resolved agrees

end Records

section RoundTrip

variable {P : Program} {roots : List NodeId} {S : ByteArray}

/-- An EH table whose trees are held at the roots of a canonical program,
written from a writer in step at the top level, is read back by `readEhTable`
over exactly the bytes after its tag, as a table whose trees stand for the
written ones: renamed by the node correspondence it is the written table,
regions, kinds, aliases, slots, links and root alike. -/
theorem read_write_ehTable (canonical : P.Canonical roots) {eh : EhTable} (streams : eh.Streamable)
    (rooted : ∀ r ∈ eh.regions, ∀ x ∈ r.trees, ∀ n ∈ x, n ∈ roots) (fuel : Nat) {W : TreeWriter}
    (ok : PathOk P [] W) :
    ∃ bs W', Writes (WriteM.writeEhTable · eh) W (Tag.ehTable.toUInt8 :: bs) W' ∧ Grows W W' ∧
      ∀ opens, ReadsBack P roots S opens W W' bs fuel ReadM.readEhTable
        (fun τ t => TableAgrees τ t eh) := by
  obtain ⟨bs, W', step⟩ := table_step (S := S) (fun okW grows => PathOk.grow okW grows) streams
    (fun r member x tree => rootSlot_steps canonical (rooted r member x tree) fuel) ok
  have tagged := (Writes.append (Bytes.u8_data · Tag.ehTable.toUInt8) W).bind step.writes
  have same : (WriteM.writeEhTable · eh) = fun out =>
      pure (Out.u8 out Tag.ehTable.toUInt8) >>= fun out =>
        eh.slots.zipIdx.foldlM (WriteM.writeSlot eh)
          (Out.uleb (Out.sleb (Out.uleb out eh.lastRegionNumber.toUInt64) eh.rootNumber)
            eh.slots.length.toUInt64) >>= fun out => pure (Out.u8 out Tag.null.toUInt8) := by
    funext out
    rw [WriteM.writeEhTable_eq, pure_bind]
  rw [same]
  exact ⟨bs, W', tagged, step.grows, step.readsBack⟩

end RoundTrip

end TreeCodec

namespace Program

/-- Nothing is reached from no roots. -/
theorem not_reaches_nil (p : Program) {n : NodeId} : ¬ p.Reaches [] n := by
  intro reaches
  induction reaches with
  | root member => cases member
  | child _ _ below => exact below

/-- The empty program is canonical from no roots: only its common nodes are
the standard ones to check. -/
theorem canonical_new_nil : Program.new.Canonical [] where
  nodes _ reaches := absurd reaches (not_reaches_nil _)
  inRange _ reaches := absurd reaches (not_reaches_nil _)
  spellings _ _ _ reaches := absurd reaches (not_reaches_nil _)
  singleHolder _ reaches := absurd reaches (not_reaches_nil _)
  commons := CommonNode.node_new

end Program

namespace EhTable

/-- A try region with one handler, the handler also named by a second number
and so reached through a shared slot, a hole, and a cleanup after the try as
its next peer. -/
def tryCatchAliased : EhTable where
  regions := [
    { number := 0, inner := some ⟨1⟩, nextPeer := some ⟨2⟩, kind := .tryBlock (some ⟨1⟩) (some ⟨1⟩) },
    { number := 1, aka := [2], outer := some ⟨0⟩, kind := .catchBlock none none none none },
    { number := 4, mayContainThrow := true, kind := .cleanup }]
  slots := [some ⟨0⟩, some ⟨1⟩, some ⟨1⟩, none, some ⟨2⟩]
  root := some ⟨0⟩
  lastRegionNumber := 4

theorem tryCatchAliased_streamable : tryCatchAliased.Streamable where
  verified := rfl
  named := by decide
  placed := by decide
  increasing := by decide
  aliased i r found n member := by
    -- only the handler lists an alias: the number of its shared slot
    rcases i with _ | _ | _ | i <;> simp [tryCatchAliased] at found <;> subst found <;>
      simp at member
    subst member
    rfl
  ascending := by decide
  fits := by decide

end EhTable

namespace TreeCodec

/-- The table `tryCatchAliased`, with its links, alias, shared slot and hole,
meets what the round trip asks, and is read back over its bytes. -/
theorem tryCatchAliased_read_write :
    EhTable.tryCatchAliased.Streamable ∧ ∃ bs W',
      Writes (WriteM.writeEhTable · EhTable.tryCatchAliased) (TreeWriter.new Program.new {} true)
        (Tag.ehTable.toUInt8 :: bs) W' ∧ Grows (TreeWriter.new Program.new {} true) W' ∧
      ∀ opens, ReadsBack Program.new [] ByteArray.empty opens (TreeWriter.new Program.new {} true) W' bs 256
        ReadM.readEhTable (fun τ t => TableAgrees τ t EhTable.tryCatchAliased) :=
  ⟨EhTable.tryCatchAliased_streamable,
    read_write_ehTable Program.canonical_new_nil EhTable.tryCatchAliased_streamable
      (fun r member x tree n held => by
        simp only [EhTable.tryCatchAliased, List.mem_cons, List.not_mem_nil, or_false] at member
        rcases member with rfl | rfl | rfl <;> simp [EhRegion.trees, EhKind.trees] at tree <;>
          simp [tree] at held) 256
      (pathOk_new _ _)⟩

end TreeCodec

end IrStream
