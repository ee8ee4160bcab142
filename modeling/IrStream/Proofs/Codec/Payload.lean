import Mathlib
import IrStream.Proofs.Codec.Arena
import IrStream.Proofs.HexReal

/-!
Payloads in step. Given that every child slot of a node is written and read
back in step (`SlotSteps`), the node's payload is too, in every layout: the
counted lists and pairs (`all_step`, `pairs_step`), the streamed fields of
declarations, types and binfos (`fields_step`), and the fixed layouts
(`payload_step`). The payload read back has the same constructor, scalars
and text as the one written, and its slots stand for the written slots
(`DataAgrees`).

The counted loop of the reader is first shown equal to a plain recursion,
`ReadM.readList`, which the proofs follow. For records, each streamed field is
a link, a list of links or a scalar; that renaming the slots of a record
commutes with setting a field (`FieldCommutes`) is proved once per kind of
record, and the reader, which starts from the empty record and sets each
streamed field, then rebuilds the record written, whose other fields are at
their defaults.
-/

namespace IrStream

namespace ReadM

/-- `count` items, read one after another. -/
def readList {α : Type} : Nat → ReadM α → ReadM (List α)
  | 0, _ => pure []
  | n + 1, item => do
    let a ← item
    let rest ← readList n item
    pure (a :: rest)

theorem forIn_range' {α : Type} (item : ReadM α) :
    ∀ (n s : Nat) (acc : Array α),
      forIn (List.range' s n) acc (fun (_ : Nat) (acc : Array α) => do
          let a ← item
          pure (ForInStep.yield (acc.push a))) =
        (readList n item >>= fun l => pure (acc ++ l.toArray))
  | 0, s, acc => by simp [readList]
  | n + 1, s, acc => by
    simp only [List.range'_succ, List.forIn_cons, readList, bind_assoc, pure_bind]
    congr 1
    funext a
    rw [forIn_range' item n (s + 1) (acc.push a)]
    simp

/-- The counted loop reads its items in order. -/
theorem readCount_eq {α : Type} (count : Nat) (item : ReadM α) :
    readCount count item = readList count item := by
  simp only [readCount, Std.Legacy.Range.forIn_eq_forIn_range']
  rw [show (Std.Legacy.Range.mk 0 count 1 (by omega)).size = count by
    simp [Std.Legacy.Range.size]]
  rw [forIn_range' item count 0 #[]]
  simp

end ReadM

namespace Bytes

theorem toList_mk (bytes : List UInt8) : (ByteArray.mk bytes.toArray).toList = bytes := by
  simp [toList_eq]

end Bytes

namespace BinfoData

/-- Every slot of a binfo passed through `f`, the base lists included: what
renaming the slots of a payload does to a binfo. -/
def mapSlots (f : Option NodeId → Option NodeId) (b : BinfoData) : BinfoData :=
  { b.mapLinks f with baseAccesses := b.baseAccesses.map f, baseBinfos := b.baseBinfos.map f }

/-- Every slot of a binfo, the base lists included. -/
def slots (b : BinfoData) : List (Option NodeId) := b.links ++ b.baseAccesses ++ b.baseBinfos

end BinfoData

namespace RecordField

/-- Renaming the slots of a record commutes with setting the field, and a link
field holds slots of the record. -/
def Commutes {ρ : Type} (rename : (Option NodeId → Option NodeId) → ρ → ρ)
    (slots : ρ → List (Option NodeId)) : RecordField ρ → Prop
  | .link get set => (∀ g r v, rename g (set r v) = set (rename g r) (g v)) ∧
      ∀ r, get r ∈ slots r
  | .links get set => (∀ g r vs, rename g (set r vs) = set (rename g r) (vs.map g)) ∧
      ∀ r, ∀ c ∈ get r, c ∈ slots r
  | .scalar _ set => ∀ g r v, rename g (set r v) = set (rename g r) v

theorem ofDeclLink_commutes (l : DeclLink) :
    (ofDeclLink l).Commutes DeclData.mapLinks DeclData.links :=
  ⟨fun _ _ _ => by cases l <;> rfl,
    fun _ => by cases l <;> simp [DeclData.link, DeclData.links]⟩

theorem ofTypeLink_commutes (l : TypeLink) :
    (ofTypeLink l).Commutes TypeData.mapLinks TypeData.links :=
  ⟨fun _ _ _ => by cases l <;> rfl,
    fun _ => by cases l <;> simp [TypeData.link, TypeData.links]⟩

theorem ofBinfoLink_commutes (l : BinfoLink) :
    (ofBinfoLink l).Commutes BinfoData.mapSlots BinfoData.slots :=
  ⟨fun _ _ _ => by cases l <;> rfl,
    fun _ => by cases l <;> simp [BinfoData.link, BinfoData.slots, BinfoData.links]⟩

theorem declFields_commute (code : TreeCode) :
    ∀ f ∈ declFields code, f.Commutes DeclData.mapLinks DeclData.links := by
  have scalars : declAlign.Commutes DeclData.mapLinks DeclData.links ∧
      declOffAlign.Commutes DeclData.mapLinks DeclData.links ∧
      declMode.Commutes DeclData.mapLinks DeclData.links ∧
      declBuiltinCode.Commutes DeclData.mapLinks DeclData.links :=
    ⟨fun _ _ _ => rfl, fun _ _ _ => rfl, fun _ _ _ => rfl, fun _ _ _ => rfl⟩
  unfold declFields
  split <;> simp [ofDeclLink_commutes, scalars]

theorem typeFields_commute (code : TreeCode) :
    ∀ f ∈ typeFields code, f.Commutes TypeData.mapLinks TypeData.links := by
  have scalars : typePrecision.Commutes TypeData.mapLinks TypeData.links ∧
      typeMode.Commutes TypeData.mapLinks TypeData.links ∧
      typeAlign.Commutes TypeData.mapLinks TypeData.links :=
    ⟨fun _ _ _ => rfl, fun _ _ _ => rfl, fun _ _ _ => rfl⟩
  unfold typeFields
  split <;> simp [typeCommonFields, ofTypeLink_commutes, scalars]

theorem binfoFields_commute : ∀ f ∈ binfoFields, f.Commutes BinfoData.mapSlots BinfoData.slots := by
  simp only [binfoFields, List.mem_cons, List.not_mem_nil, or_false, forall_eq_or_imp,
    ofBinfoLink_commutes, forall_eq, true_and, and_true]
  exact ⟨⟨fun _ _ _ => rfl, fun _ _ member => by simp [BinfoData.slots, member]⟩,
    ⟨fun _ _ _ => rfl, fun _ _ member => by simp [BinfoData.slots, member]⟩⟩

/-- A binfo streams all its fields. -/
theorem restrict_binfoFields (b : BinfoData) : restrict binfoFields b {} = b := by
  cases b
  rfl

end RecordField

namespace TreeCodec

section Sequences

variable {P : Program} {roots : List NodeId} {S : ByteArray} {fuel : Nat}

variable (P roots S fuel) in
/-- Every write of `x` from a writer state with `ok` appends at least one byte
and is read back by `read` as a value that agrees with `x`. -/
def Steps {γ β : Type} (ok : TreeWriter → Prop) (write : ByteArray → γ → WriteM ByteArray)
    (read : ReadM β) (agree : List NodeId → β → γ → Prop) (x : γ) : Prop :=
  ∀ W, ok W → ∃ bs W', 0 < bs.length ∧
    Step P roots S fuel W (write · x) read (agree · · x) bs W'

variable {ok : TreeWriter → Prop} {γ β : Type} {write : ByteArray → γ → WriteM ByteArray}
  {item : ReadM β} {agree : List NodeId → β → γ → Prop}

/-- Items written one after another are read back in order. -/
theorem list_step [Inhabited β] (okGrows : ∀ {W W'}, ok W → Grows W W' → ok W') :
    ∀ (xs : List γ), (∀ x ∈ xs, Steps P roots S fuel ok write item agree x) →
      ∀ W, ok W → ∃ bs W', xs.length ≤ bs.length ∧
        Step P roots S fuel W (fun out => xs.foldlM write out) (ReadM.readList xs.length item)
          (fun τ vs => List.Forall₂ (agree τ) vs xs) bs W'
  | [], _, W, _ => ⟨[], W, le_refl _, (Step.nil [] W).mono fun _ _ nil => nil ▸ .nil⟩
  | x :: xs, each, W, okW => by
    obtain ⟨bs₁, W₁, long₁, first⟩ := each x List.mem_cons_self W okW
    obtain ⟨bs₂, W₂, long₂, rest⟩ := list_step okGrows xs
      (fun y member => each y (List.mem_cons_of_mem _ member)) W₁ (okGrows okW first.grows)
    refine ⟨bs₁ ++ bs₂, W₂, by simp only [List.length_cons, List.length_append]; omega, ?_⟩
    simp only [List.foldlM_cons, List.length_cons, ReadM.readList]
    exact (first.bind fun _ => rest.map).mono fun _ _ ⟨_, head, _, tail, eq⟩ => eq ▸ .cons head tail

/-- A count followed by that many items. The count is a 64-bit varint, so the
items must be fewer than `2 ^ 64`; each takes a byte, which the byte budget
bounds. -/
theorem Step.counted {body : ByteArray → WriteM ByteArray} {len : Nat} {A : List NodeId → List β → Prop}
    {bs : List UInt8} {W W' : TreeWriter} (long : len ≤ bs.length)
    (items : Step P roots S fuel W body (ReadM.readList len item) A bs W') :
    Step P roots S fuel W (fun out => body (Out.uleb out len.toUInt64))
      (do ReadM.readCount (← ReadM.onCursor CursorM.readUleb).toNat item) A
      (Leb128.ofUInt64 len.toUInt64 ++ bs) W' where
  writes out := by
    obtain ⟨out', run, data⟩ := items.writes (Out.uleb out len.toUInt64)
    exact ⟨out', run, by rw [data, Bytes.uleb_data, List.append_assoc]⟩
  grows := items.grows
  readsBack opens := by
    intro R τ rest inv extended ahead budget bound
    have small : len < 2 ^ 64 := by
      simp only [List.length_append] at budget
      omega
    have count : len.toUInt64.toNat = len := by
      rw [Nat.toUInt64_eq, UInt64.toNat_ofNat_of_lt' small]
    have counted : ReadsBack P roots S opens W W (Leb128.ofUInt64 len.toUInt64) fuel
        (ReadM.onCursor CursorM.readUleb) (fun _ c => c = len.toUInt64) :=
      ReadsBack.onCursor fun _ _ ahead => CursorM.readUleb_of_ahead ahead
    have following : ∀ c (_ : List NodeId), c = len.toUInt64 →
        ReadsBack P roots S opens W W' bs fuel (ReadM.readCount c.toNat item) A := by
      intro c _ known
      rw [known, count, ReadM.readCount_eq]
      exact items.readsBack opens
    have both := counted.bind following items.grows
    exact (both.mono fun _ _ ⟨_, _, agrees⟩ => agrees) R τ rest inv extended ahead budget bound

/-- A counted list of slots. -/
theorem all_step (okGrows : ∀ {W W'}, ok W → Grows W W' → ok W')
    {write : ByteArray → Option NodeId → WriteM ByteArray} {read : ReadM (Option NodeId)}
    {xs : List (Option NodeId)} (each : ∀ c ∈ xs, Steps P roots S fuel ok write read Agrees c)
    {W : TreeWriter} (okW : ok W) :
    ∃ bs W', Step P roots S fuel W (fun out => WriteM.writeAll write out xs) (ReadM.readAll read)
      (fun τ vs => List.Forall₂ (Agrees τ) vs xs) bs W' := by
  obtain ⟨bs, W', long, items⟩ := list_step okGrows xs each W okW
  exact ⟨_, W', Step.counted long items⟩

/-- Two slots in a row. -/
theorem pair_steps (okGrows : ∀ {W W'}, ok W → Grows W W' → ok W')
    {write : ByteArray → Option NodeId → WriteM ByteArray} {read : ReadM (Option NodeId)}
    {a b : Option NodeId} (first : Steps P roots S fuel ok write read Agrees a)
    (second : Steps P roots S fuel ok write read Agrees b) :
    Steps P roots S fuel ok (fun out p => do write (← write out p.1) p.2)
      (do let a ← read; let b ← read; return (a, b))
      (fun τ v p => Agrees τ v.1 p.1 ∧ Agrees τ v.2 p.2) (a, b) := by
  intro W okW
  obtain ⟨bs₁, W₁, long₁, step₁⟩ := first W okW
  obtain ⟨bs₂, W₂, -, step₂⟩ := second W₁ (okGrows okW step₁.grows)
  refine ⟨bs₁ ++ bs₂, W₂, by simp only [List.length_append]; omega, ?_⟩
  exact (step₁.bind fun _ => step₂.map).mono fun _ _ ⟨_, agrees₁, _, agrees₂, eq⟩ =>
    eq ▸ ⟨agrees₁, agrees₂⟩

/-- A counted list of pairs of slots. -/
theorem pairs_step (okGrows : ∀ {W W'}, ok W → Grows W W' → ok W')
    {write : ByteArray → Option NodeId → WriteM ByteArray} {read : ReadM (Option NodeId)}
    {ps : List (Option NodeId × Option NodeId)}
    (each : ∀ c ∈ NodeData.pairSlots ps, Steps P roots S fuel ok write read Agrees c)
    {W : TreeWriter} (okW : ok W) :
    ∃ bs W', Step P roots S fuel W (fun out => WriteM.writePairs write out ps)
      (ReadM.readPairs read)
      (fun τ vs => List.Forall₂ (fun v p => Agrees τ v.1 p.1 ∧ Agrees τ v.2 p.2) vs ps) bs W' := by
  have pairs : ∀ p ∈ ps, Steps P roots S fuel ok (fun out p => do write (← write out p.1) p.2)
      (do let a ← read; let b ← read; return (a, b))
      (fun τ v p => Agrees τ v.1 p.1 ∧ Agrees τ v.2 p.2) p := fun p member =>
    pair_steps okGrows (each p.1 (List.mem_flatMap.2 ⟨p, member, by simp⟩))
      (each p.2 (List.mem_flatMap.2 ⟨p, member, by simp⟩))
  obtain ⟨bs, W', long, items⟩ := list_step okGrows ps pairs W okW
  exact ⟨_, W', Step.counted long items⟩

end Sequences

section Agreement

variable {τ : List NodeId}

theorem Agrees.keep {v w : Option NodeId} (agrees : Agrees τ v w) : keep τ v = v :=
  known_iff_keep.1 agrees.1

theorem forall₂_agrees {vs ws : List (Option NodeId)} (agrees : List.Forall₂ (Agrees τ) vs ws) :
    vs.map (keep τ) = vs ∧ vs.map (Option.map (image τ)) = ws := by
  induction agrees with
  | nil => exact ⟨rfl, rfl⟩
  | cons head _ tail => exact ⟨by simp [head.keep, tail.1], by simp [head.2, tail.2]⟩

theorem forall₂_agrees_pairs {vs ps : List (Option NodeId × Option NodeId)}
    (agrees : List.Forall₂ (fun v p => Agrees τ v.1 p.1 ∧ Agrees τ v.2 p.2) vs ps) :
    vs.map (fun v => (keep τ v.1, keep τ v.2)) = vs ∧
      vs.map (fun v => (v.1.map (image τ), v.2.map (image τ))) = ps := by
  induction agrees with
  | nil => exact ⟨rfl, rfl⟩
  | cons head _ tail =>
    exact ⟨by simp [head.1.keep, head.2.keep, tail.1], by simp [head.1.2, head.2.2, tail.2]⟩

/-- The record read, `r`, stands for the record written, `w`, under `τ`: its
slots are known, and renamed they give `w`. -/
def RecordAgrees {ρ : Type} (rename : (Option NodeId → Option NodeId) → ρ → ρ)
    (τ : List NodeId) (r w : ρ) : Prop :=
  rename (keep τ) r = r ∧ rename (Option.map (image τ)) r = w

/-- The payload read, `d`, stands for the payload written, `w`, under `τ`. -/
def DataAgrees (τ : List NodeId) (d w : NodeData) : Prop :=
  RecordAgrees NodeData.mapChildren τ d w

end Agreement

section Records

variable {P : Program} {roots : List NodeId} {S : ByteArray} {fuel : Nat}
  {ok : TreeWriter → Prop} {write : ByteArray → Option NodeId → WriteM ByteArray}
  {read : ReadM (Option NodeId)} {ρ : Type} {rename : (Option NodeId → Option NodeId) → ρ → ρ}
  {slots : ρ → List (Option NodeId)}

/-- The streamed fields of a record, read over any record `acc`, set the
written fields on it: if `acc` stands for `base`, the record read stands for
`base` with those fields taken from the record written. -/
theorem fields_step (okGrows : ∀ {W W'}, ok W → Grows W W' → ok W') (value : ρ)
    (each : ∀ c ∈ slots value, Steps P roots S fuel ok write read Agrees c) :
    ∀ (fields : List (RecordField ρ)), (∀ f ∈ fields, f.Commutes rename slots) →
      ∀ W, ok W → ∃ bs W', ∀ acc base : ρ,
        Step P roots S fuel W (fun out => WriteM.writeFields write out fields value)
          (ReadM.readFields read fields acc)
          (fun τ r => RecordAgrees rename τ acc base →
            RecordAgrees rename τ r (RecordField.restrict fields value base)) bs W'
  | [], _, W, _ => ⟨[], W, fun acc _ => (Step.nil acc W).mono fun _ _ eq agrees => eq ▸ agrees⟩
  | f :: fs, commute, W, okW => by
    have rest := fields_step okGrows value each fs fun g member =>
      commute g (List.mem_cons_of_mem _ member)
    -- The first field is read over `acc`; the rest over the record it gives.
    cases f with
    | link get set =>
      obtain ⟨renameSet, held⟩ := commute _ List.mem_cons_self
      obtain ⟨bs₁, W₁, -, first⟩ := each (get value) (held value) W okW
      obtain ⟨bs₂, W₂, others⟩ := rest W₁ (okGrows okW first.grows)
      refine ⟨bs₁ ++ bs₂, W₂, fun acc base => ?_⟩
      simp only [ReadM.readFields, List.foldlM_cons, bind_assoc, pure_bind]
      refine (first.bind fun v => others (set acc v) (set base (get value))).mono ?_
      rintro τ r ⟨v, agrees, after⟩ ⟨kept, renamed⟩
      exact after ⟨by rw [renameSet, kept, agrees.keep], by rw [renameSet, renamed, agrees.2]⟩
    | links get set =>
      obtain ⟨renameSet, held⟩ := commute _ List.mem_cons_self
      obtain ⟨bs₁, W₁, first⟩ := all_step okGrows (fun c member => each c (held value c member)) okW
      obtain ⟨bs₂, W₂, others⟩ := rest W₁ (okGrows okW first.grows)
      refine ⟨bs₁ ++ bs₂, W₂, fun acc base => ?_⟩
      simp only [ReadM.readFields, List.foldlM_cons, bind_assoc, pure_bind]
      refine (first.bind fun vs => others (set acc vs) (set base (get value))).mono ?_
      rintro τ r ⟨vs, agrees, after⟩ ⟨kept, renamed⟩
      obtain ⟨keptAll, renamedAll⟩ := forall₂_agrees agrees
      exact after ⟨by rw [renameSet, kept, keptAll], by rw [renameSet, renamed, renamedAll]⟩
    | scalar get set =>
      have renameSet := commute _ List.mem_cons_self
      obtain ⟨bs₂, W₂, others⟩ := rest W okW
      refine ⟨Leb128.ofUInt64 (get value).toUInt64 ++ bs₂, W₂, fun acc base => ?_⟩
      simp only [ReadM.readFields, List.foldlM_cons, bind_assoc, pure_bind]
      refine (Step.bind_eq (Step.scalar (get value) W)
        (others (set acc (get value)) (set base (get value)))).mono ?_
      rintro τ r after ⟨kept, renamed⟩
      exact after ⟨by rw [renameSet, kept], by rw [renameSet, renamed]⟩

end Records

section Payload

variable {P : Program} {roots : List NodeId} {S : ByteArray} {fuel : Nat}
  {ok : TreeWriter → Prop} {write : ByteArray → Option NodeId → WriteM ByteArray}
  {read : ReadM (Option NodeId)}

/-- A slot the writer writes only under a condition, and the reader reads only
when told the same; the slot is empty when the condition fails. -/
theorem optional_step {x : Option NodeId} {c told : Bool} (tells : told = c)
    (absent : c = false → x = none) (present : c = true → Steps P roots S fuel ok write read Agrees x)
    {W : TreeWriter} (okW : ok W) :
    ∃ bs W', Step P roots S fuel W (fun out => if c then write out x else pure out)
      (if told then read else pure none) (Agrees · · x) bs W' := by
  subst tells
  cases told with
  | false =>
    rw [absent rfl]
    exact ⟨[], W, (Step.nil none W).mono fun _ _ eq => by subst eq; exact agrees_none⟩
  | true =>
    obtain ⟨bs, W', -, step⟩ := present rfl W okW
    exact ⟨bs, W', step⟩

/-- An optional slot, then the rest of the payload, which may depend on the
slot read. Writer and reader both branch on whether the slot is there. -/
theorem optional_then {β : Type} {x : Option NodeId} {told : Bool} {W W₁ W₂ : TreeWriter}
    {bs₁ bs₂ : List UInt8} {k : ByteArray → WriteM ByteArray} {rk : Option NodeId → ReadM β}
    {B : Option NodeId → List NodeId → β → Prop}
    (first : Step P roots S fuel W (fun out => if x.isSome then write out x else pure out)
      (if told then read else pure none) (Agrees · · x) bs₁ W₁)
    (next : ∀ v, Step P roots S fuel W₁ k (rk v) (B v) bs₂ W₂) :
    Step P roots S fuel W (fun out => if x.isSome then write out x >>= k else pure out >>= k)
      (if told then read >>= rk else pure none >>= rk) (fun τ b => ∃ a, Agrees τ a x ∧ B a τ b)
      (bs₁ ++ bs₂) W₂ := by
  have both := first.bind next
  rw [apply_ite (· >>= rk)] at both
  exact Step.congr_write (fun out => by split <;> rfl) both

/-- The variant word of a case label says which bounds follow. -/
theorem caseLabel_variant (low high : Bool) :
    (((if low then 1 else 0) + (if high then 2 else 0) : UInt64) &&& 1 != 0) = low ∧
      (((if low then 1 else 0) + (if high then 2 else 0) : UInt64) &&& 2 != 0) = high := by
  cases low <;> cases high <;> decide

/-- A payload of the shape its layout gives is read back in step, its slots
standing for the slots written, given that each slot is. -/
theorem payload_step (okGrows : ∀ {W W'}, ok W → Grows W W' → ok W') (id : NodeId) {n : Node}
    (canonical : n.Canonical) (plain : n.code ≠ .identifierNode)
    (each : ∀ c ∈ n.data.children, Steps P roots S fuel ok write read Agrees c)
    {W : TreeWriter} (okW : ok W) :
    ∃ bs W', Step P roots S fuel W (fun out => WriteM.writePayload write out id n)
      (ReadM.readPayload read n.code) (fun τ d => DataAgrees τ d n.data) bs W' := by
  rcases n with ⟨code, ty, flags, locus, data⟩
  have fits := canonical.fits
  dsimp only at fits each plain
  unfold WriteM.writePayload ReadM.readPayload
  generalize layout : code.layout = L at fits
  cases NodeData.Fits.of_fits fits <;> dsimp only
  case identifier s => exact absurd (TreeCode.layout_eq_identifier.1 layout) plain
  case int low high =>
    refine ⟨_, W, Step.congr_write (fun _ => by rfl)
      ((Step.bind_eq (Step.uleb low W) (Step.sleb high W).map).mono ?_)⟩
    rintro τ d ⟨_, rfl, rfl⟩
    exact ⟨rfl, rfl⟩
  case real bits =>
    refine ⟨_, _, ((requiredStr_step W (HexReal.format bits) fuel).bind_pure_of_eq
      (show _ = pure (NodeData.real bits) by simp [HexReal.parse_format])).mono ?_⟩
    rintro τ d rfl
    exact ⟨rfl, rfl⟩
  case complex r i =>
    obtain ⟨bs₁, W₁, -, first⟩ := each r (by simp [NodeData.children]) W okW
    obtain ⟨bs₂, W₂, -, second⟩ := each i (by simp [NodeData.children]) W₁ (okGrows okW first.grows)
    refine ⟨bs₁ ++ bs₂, W₂, (first.bind fun _ => second.map).mono ?_⟩
    rintro τ d ⟨r', agreesR, i', agreesI, rfl⟩
    exact ⟨by simp [NodeData.mapChildren, agreesR.keep, agreesI.keep],
      by simp [NodeData.mapChildren, agreesR.2, agreesI.2]⟩
  case vector elts | vec elts =>
    obtain ⟨bs, W', step⟩ := all_step okGrows (show ∀ c ∈ elts, _ from each) okW
    refine ⟨bs, W', step.map.mono ?_⟩
    rintro τ d ⟨vs, agrees, rfl⟩
    obtain ⟨kept, renamed⟩ := forall₂_agrees agrees
    exact ⟨by simp [NodeData.mapChildren, kept], by simp [NodeData.mapChildren, renamed]⟩
  case str bytes =>
    refine ⟨_, _, (requiredRef_step W ⟨bytes.toArray⟩ fuel).map.mono ?_⟩
    rintro τ d ⟨_, rfl, rfl⟩
    rw [Bytes.toList_mk]
    exact ⟨rfl, rfl⟩
  case list entries | constructor entries =>
    obtain ⟨bs, W', step⟩ := pairs_step okGrows each okW
    refine ⟨bs, W', step.map.mono ?_⟩
    rintro τ d ⟨vs, agrees, rfl⟩
    obtain ⟨kept, renamed⟩ := forall₂_agrees_pairs agrees
    exact ⟨by simp [NodeData.mapChildren, kept], by simp [NodeData.mapChildren, renamed]⟩
  case binfo b =>
    obtain ⟨bs, W', step⟩ := fields_step okGrows b each binfoFields
      RecordField.binfoFields_commute W okW
    refine ⟨bs, W', (step {} {}).map.mono ?_⟩
    rintro τ d ⟨r, agrees, rfl⟩
    obtain ⟨kept, renamed⟩ := agrees ⟨rfl, rfl⟩
    rw [RecordField.restrict_binfoFields] at renamed
    exact ⟨congrArg NodeData.binfo kept, congrArg NodeData.binfo renamed⟩
  case type t =>
    obtain ⟨bs, W', step⟩ := fields_step okGrows t each (typeFields code)
      (RecordField.typeFields_commute code) W okW
    refine ⟨bs, W', (step {} {}).map.mono ?_⟩
    rintro τ d ⟨r, agrees, rfl⟩
    obtain ⟨kept, renamed⟩ := agrees ⟨rfl, rfl⟩
    rw [canonical.typeFields t rfl] at renamed
    exact ⟨congrArg NodeData.type kept, congrArg NodeData.type renamed⟩
  case decl d =>
    obtain ⟨bs, W', step⟩ := fields_step okGrows d each (declFields code)
      (RecordField.declFields_commute code) W okW
    refine ⟨bs, W', (step {} {}).map.mono ?_⟩
    rintro τ d ⟨r, agrees, rfl⟩
    obtain ⟨kept, renamed⟩ := agrees ⟨rfl, rfl⟩
    rw [canonical.declFields d rfl] at renamed
    exact ⟨congrArg NodeData.decl kept, congrArg NodeData.decl renamed⟩
  case call f c args =>
    obtain ⟨bs₁, W₁, -, first⟩ := each f (by simp [NodeData.children]) W okW
    have okW₁ := okGrows okW first.grows
    obtain ⟨bs₂, W₂, -, second⟩ := each c (by simp [NodeData.children]) W₁ okW₁
    obtain ⟨bs₃, W₃, third⟩ := all_step okGrows
      (show ∀ a ∈ args, _ from fun a member => each a (by simp [NodeData.children, member]))
      (okGrows okW₁ second.grows)
    refine ⟨bs₁ ++ (bs₂ ++ bs₃), W₃, (first.bind fun _ => second.bind fun _ => third.map).mono ?_⟩
    rintro τ d ⟨f', agreesF, c', agreesC, args', agreesArgs, rfl⟩
    obtain ⟨kept, renamed⟩ := forall₂_agrees agreesArgs
    exact ⟨by simp [NodeData.mapChildren, agreesF.keep, agreesC.keep, kept],
      by simp [NodeData.mapChildren, agreesF.2, agreesC.2, renamed]⟩
  case caseLabel low high label =>
    -- The variant word says which bounds follow; the writer tests the bounds themselves.
    obtain ⟨lowBit, highBit⟩ := caseLabel_variant low.isSome high.isSome
    obtain ⟨bs₁, W₁, lowStep⟩ := optional_step lowBit (fun none => by simpa using none)
      (fun _ => each low (by simp [NodeData.children])) okW
    have okW₁ := okGrows okW lowStep.grows
    obtain ⟨bs₂, W₂, highStep⟩ := optional_step highBit (fun none => by simpa using none)
      (fun _ => each high (by simp [NodeData.children])) okW₁
    obtain ⟨bs₃, W₃, -, labelStep⟩ :=
      each label (by simp [NodeData.children]) W₂ (okGrows okW₁ highStep.grows)
    refine ⟨_, W₃, Step.congr_write (fun _ => by rfl) ((Step.bind_eq (Step.uleb _ W)
      (optional_then lowStep fun _ => optional_then highStep fun _ => labelStep.map)).mono ?_)⟩
    rintro τ d ⟨low', agreesL, high', agreesH, label', agreesLabel, rfl⟩
    exact ⟨by simp [NodeData.mapChildren, agreesL.keep, agreesH.keep, agreesLabel.keep],
      by simp [NodeData.mapChildren, agreesL.2, agreesH.2, agreesLabel.2]⟩
  case asm text i o c =>
    have first : Step P roots S fuel W _ _ _ _ _ := requiredRef_step W ⟨text.toArray⟩ fuel
    have okW₁ := okGrows okW first.grows
    obtain ⟨bs₂, W₂, -, second⟩ := each i (by simp [NodeData.children]) _ okW₁
    have okW₂ := okGrows okW₁ second.grows
    obtain ⟨bs₃, W₃, -, third⟩ := each o (by simp [NodeData.children]) W₂ okW₂
    obtain ⟨bs₄, W₄, -, fourth⟩ :=
      each c (by simp [NodeData.children]) W₃ (okGrows okW₂ third.grows)
    refine ⟨_, W₄, (first.bind fun _ => second.bind fun _ => third.bind fun _ =>
      fourth.map).mono ?_⟩
    rintro τ d ⟨_, rfl, i', agreesI, o', agreesO, c', agreesC, rfl⟩
    rw [Bytes.toList_mk]
    exact ⟨by simp [NodeData.mapChildren, agreesI.keep, agreesO.keep, agreesC.keep],
      by simp [NodeData.mapChildren, agreesI.2, agreesO.2, agreesC.2]⟩
  case ssa version var =>
    obtain ⟨bs, W', -, step⟩ := each var (by simp [NodeData.children]) W okW
    refine ⟨_, W', Step.congr_write (fun _ => by rfl)
      ((Step.bind_eq (Step.scalar version W) step.map).mono ?_)⟩
    rintro τ d ⟨v, agrees, rfl⟩
    exact ⟨by simp [NodeData.mapChildren, agrees.keep], by simp [NodeData.mapChildren, agrees.2]⟩
  case empty => exact ⟨[], W, (Step.nil NodeData.empty W).mono fun _ _ eq => by subst eq; exact ⟨rfl, rfl⟩⟩
  case operands ops nonempty =>
    obtain ⟨x, xs, rfl⟩ := List.exists_cons_of_ne_nil nonempty
    obtain ⟨bs, W', -, step⟩ := list_step okGrows (x :: xs) each W okW
    rw [← ReadM.readCount_eq] at step
    refine ⟨bs, W', Step.congr_write (fun out => ?_) (step.map.mono ?_)⟩
    · show (if ((x :: xs).length == (x :: xs).length) = true then _ else _) = _
      simp
    · rintro τ d ⟨vs, agrees, rfl⟩
      obtain ⟨kept, renamed⟩ := forall₂_agrees agrees
      exact ⟨by simp [NodeData.mapChildren, kept], by simp [NodeData.mapChildren, renamed]⟩

end Payload

end TreeCodec

end IrStream
