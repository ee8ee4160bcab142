import Mathlib
import IrStream.Proofs.Codec.Canonical
import IrStream.Proofs.Position

/-!
The tree writer and the tree reader in step. While a reader reads back what a
writer wrote, a map `τ` sends each node the reader has made to the writer's
node it stands for; `Inv` says what ties the two states together: the
back-reference tables number the same nodes, the string stream the reader
resolves against extends the writer's, the last positions agree, and every
finished reader node is the writer's node with its slots renamed by `τ`.

A step of the codec is a writer action and a reader action. `Writes` says
what the writer appends and where it leaves its state, whatever was written
before; `ReadsBack` says that the reader, in step with the writer and with
those bytes ahead, reads them and no more, keeps the invariant, and returns a
value that agrees with what was written. Both compose along `>>=`
(`Writes.bind`, `ReadsBack.bind`), so each part of the format is proved once:
here the fixed-width and varint fields, string references and flag words.
-/

namespace IrStream

namespace TreeCodec

/-- The writer node a reader node stands for: its entry in the map `τ`. -/
def image (τ : List NodeId) (r : NodeId) : NodeId := τ.getD r.val r

/-- Every node in the slot has an entry in `τ`. -/
def Known (τ : List NodeId) (slot : Option NodeId) : Prop := ∀ r ∈ slot, r.val < τ.length

/-- A reader slot stands for a writer slot: its node, if any, is mapped by `τ`
to the writer's. -/
def Agrees (τ : List NodeId) (slot written : Option NodeId) : Prop :=
  Known τ slot ∧ slot.map (image τ) = written

/-- A reader node stands for a writer node: renaming its slots by `τ` gives the
writer's node, and every slot is known to `τ`. -/
def NodeAgrees (τ : List NodeId) (m n : Node) : Prop :=
  (∀ c ∈ m.children, Known τ c) ∧ m.mapChildren (Option.map (image τ)) = n

section Map

variable {τ τ' : List NodeId}

theorem image_eq {r n : NodeId} (entry : τ[r.val]? = some n) : image τ r = n := by
  simp [image, List.getD_eq_getElem?_getD, entry]

theorem getElem?_of_isPrefix (grown : τ <+: τ') {i : Nat} {n : NodeId} (entry : τ[i]? = some n) :
    τ'[i]? = some n := by
  obtain ⟨more, rfl⟩ := grown
  rw [List.getElem?_append_left (List.getElem?_eq_some_iff.1 entry).1, entry]

theorem image_of_isPrefix (grown : τ <+: τ') {r : NodeId} (known : r.val < τ.length) :
    image τ' r = image τ r := by
  have entry : τ[r.val]? = some τ[r.val] := List.getElem?_eq_getElem known
  rw [image_eq entry, image_eq (getElem?_of_isPrefix grown entry)]

theorem Known.mono (grown : τ <+: τ') {slot : Option NodeId} (known : Known τ slot) :
    Known τ' slot :=
  fun r member => lt_of_lt_of_le (known r member) grown.length_le

/-- The slot, if `τ` knows its node, and no node otherwise. -/
def keep (τ : List NodeId) (slot : Option NodeId) : Option NodeId :=
  slot.filter fun r => decide (r.val < τ.length)

theorem known_iff_keep {slot : Option NodeId} : Known τ slot ↔ keep τ slot = slot := by
  cases slot <;> simp [Known, keep, Option.filter]

@[simp] theorem known_none : Known τ none := by simp [Known]

theorem known_some {r : NodeId} : Known τ (some r) ↔ r.val < τ.length := by simp [Known]

/-- A known slot is renamed alike by every extension of the map. -/
theorem map_image_of_isPrefix (grown : τ <+: τ') {slot : Option NodeId} (known : Known τ slot) :
    slot.map (image τ') = slot.map (image τ) := by
  cases slot with
  | none => rfl
  | some r => simp [image_of_isPrefix grown (known r rfl)]

theorem Agrees.mono (grown : τ <+: τ') {slot written : Option NodeId}
    (agrees : Agrees τ slot written) : Agrees τ' slot written :=
  ⟨agrees.1.mono grown, by rw [map_image_of_isPrefix grown agrees.1, agrees.2]⟩

@[simp] theorem agrees_none : Agrees τ none none := by simp [Agrees]

theorem agrees_some {r n : NodeId} : Agrees τ (some r) (some n) ↔ τ[r.val]? = some n := by
  constructor
  · rintro ⟨known, named⟩
    have known : r.val < τ.length := known r rfl
    simp only [Option.map_some, Option.some.injEq] at named
    rw [List.getElem?_eq_getElem known, ← named, image_eq (List.getElem?_eq_getElem known)]
  · intro entry
    exact ⟨fun x member => by cases member; exact (List.getElem?_eq_some_iff.1 entry).1,
      by simp [image_eq entry]⟩

theorem NodeAgrees.mono (grown : τ <+: τ') {m n : Node} (agrees : NodeAgrees τ m n) :
    NodeAgrees τ' m n := by
  refine ⟨fun c member => (agrees.1 c member).mono grown, ?_⟩
  rw [← agrees.2]
  exact Node.mapChildren_congr fun c member => map_image_of_isPrefix grown (agrees.1 c member)

end Map

/-- What a writer state must be for writing trees of `P` outside any function
body: the program is `P`, positions are written, and the common nodes have
back-references. -/
structure WriterOk (P : Program) (W : TreeWriter) : Prop where
  program : W.program = P
  scope : W.scope = none
  enabled : W.position.enabled = true
  commons : ∀ c : CommonNode, (W.pickles.lookup c.id).isSome

/-- How a writer state moves on: the program, scope, position mode and
declaration tables stay, back-references stay, and the string stream only
grows. -/
structure Grows (W W' : TreeWriter) : Prop where
  program : W'.program = W.program
  scope : W'.scope = W.scope
  enabled : W'.position.enabled = W.position.enabled
  pickles : ∀ n i, W.pickles.lookup n = some i → W'.pickles.lookup n = some i
  strings : W.strings.stream.data.toList <+: W'.strings.stream.data.toList
  decls : W'.decls = W.decls

namespace Grows

theorem refl (W : TreeWriter) : Grows W W :=
  ⟨rfl, rfl, rfl, fun _ _ found => found, List.prefix_refl _, rfl⟩

theorem trans {W₁ W₂ W₃ : TreeWriter} (first : Grows W₁ W₂) (second : Grows W₂ W₃) :
    Grows W₁ W₃ :=
  ⟨second.program.trans first.program, second.scope.trans first.scope,
    second.enabled.trans first.enabled,
    fun n i found => second.pickles n i (first.pickles n i found),
    first.strings.trans second.strings, second.decls.trans first.decls⟩

end Grows

theorem WriterOk.grow {P : Program} {W W' : TreeWriter} (ok : WriterOk P W) (grows : Grows W W') :
    WriterOk P W' where
  program := grows.program.trans ok.program
  scope := grows.scope.trans ok.scope
  enabled := grows.enabled.trans ok.enabled
  commons c := by
    obtain ⟨i, found⟩ := Option.isSome_iff_exists.1 (ok.commons c)
    simp [grows.pickles _ _ found]

/-- What `write` does from the writer state `W`, whatever was written before
it: it appends `bs` and leaves the writer at `W'`. -/
def Writes (write : ByteArray → WriteM ByteArray) (W : TreeWriter) (bs : List UInt8)
    (W' : TreeWriter) : Prop :=
  ∀ out, ∃ out', (write out).run W = .ok (out', W') ∧ out'.data.toList = out.data.toList ++ bs

namespace Writes

theorem bind {wa wb : ByteArray → WriteM ByteArray} {W W₁ W₂ : TreeWriter} {bs₁ bs₂ : List UInt8}
    (first : Writes wa W bs₁ W₁) (second : Writes wb W₁ bs₂ W₂) :
    Writes (fun out => wa out >>= wb) W (bs₁ ++ bs₂) W₂ := by
  intro out
  obtain ⟨out₁, run₁, data₁⟩ := first out
  obtain ⟨out₂, run₂, data₂⟩ := second out₁
  refine ⟨out₂, ?_, by rw [data₂, data₁, List.append_assoc]⟩
  simp only [StateT.run_bind, run₁]
  exact run₂

/-- A write that only appends. -/
theorem append {g : ByteArray → ByteArray} {bs : List UInt8}
    (appends : ∀ out, (g out).data.toList = out.data.toList ++ bs) (W : TreeWriter) :
    Writes (fun out => pure (g out)) W bs W :=
  fun out => ⟨g out, rfl, appends out⟩

end Writes

section Invariant

variable (P : Program) (roots : List NodeId) (S : ByteArray)

/-- The reader `R` is in step with the writer `W` under the map `τ`, the reader
resolving strings in the finished stream `S`. The nodes in `opens` are
placeholders whose fields are still being read; every other reader node
stands for the writer's node `τ` maps it to. -/
structure Inv (W : TreeWriter) (R : TreeReader) (τ : List NodeId) (opens : List NodeId) : Prop where
  readerScope : R.scope = none
  readerStrings : R.strings = S
  stringsHold : W.strings.Holds
  stringsPrefix : W.strings.stream.data.toList <+: S.data.toList
  stringsSmall : S.size < 2 ^ 64
  last : R.last = W.position.last
  mapSize : τ.length = R.program.arena.size
  /-- The common nodes stand for themselves. -/
  commons : ∀ c : CommonNode, τ[c.index]? = some c.id
  /-- Every other reader node stands for a writer node that is not common. -/
  uncommon : ∀ i n, CommonNode.count ≤ i → τ[i]? = some n → CommonNode.count ≤ n.val
  /-- Both back-reference tables number the same nodes. -/
  pickles : ∀ n i, W.pickles.lookup n = some i ↔
    ∃ r, R.pickles.nodes[i]? = some r ∧ τ[r.val]? = some n
  pickleCount : W.pickles.size = R.pickles.nodes.size
  picklesKnown : ∀ r ∈ R.pickles.nodes, r.val < τ.length
  /-- A reader node standing for a type, declaration or binfo has a back-reference. -/
  indexed : ∀ i n, CommonNode.count ≤ i → τ[i]? = some n →
    (P.node n).code.isGlobalIndexable = true → (⟨i⟩ : NodeId) ∈ R.pickles.nodes
  reached : ∀ i n, CommonNode.count ≤ i → τ[i]? = some n → P.Reaches roots n
  nodes : ∀ r n, τ[r.val]? = some n → r ∉ opens → NodeAgrees τ (R.program.node r) (P.node n)
  /-- The reader's identifier index is right about every finished node. -/
  spelled : ∀ s r, R.program.arena.identifiers.get? s = some r →
    CommonNode.count ≤ r.val ∧ r.val < τ.length ∧ r ∉ opens ∧
      (R.program.node r).identifier? = some s
  identified : ∀ r s, r.val < τ.length → r ∉ opens → (R.program.node r).identifier? = some s →
    R.program.arena.identifiers.get? s = some r
  opensKnown : ∀ r ∈ opens, r.val < τ.length
  /-- Every back-reference past the common nodes was given to a node whose tag
  the reader has passed, so back-reference indices stay below the stream's size. -/
  numbered : W.pickles.size ≤ CommonNode.count + R.cursor.pos
  cursorInside : R.cursor.pos ≤ R.cursor.data.size
  cursorSmall : CommonNode.count + R.cursor.data.size ≤ 2 ^ 64

/-- What `read` does on every reader in step with the writer state `W`, with
fewer than `fuel` bytes `bs` ahead (and `fuel` within a 64-bit count): it
reads exactly `bs`, ends in step with `W'` under an extension of the map, and
returns a value that agrees, under every further extension, with what was
written. -/
def ReadsBack (opens : List NodeId) (W W' : TreeWriter) (bs : List UInt8) (fuel : Nat)
    (read : ReadM α) (agrees : List NodeId → α → Prop) : Prop :=
  ∀ R τ rest, Inv P roots S W R τ opens → W'.strings.stream.data.toList <+: S.data.toList →
    R.cursor.ahead = bs ++ rest → bs.length < fuel → fuel ≤ 2 ^ 64 →
    ∃ v R' τ', read R = .ok v R' ∧ R'.cursor = R.cursor.advance bs.length ∧
      Inv P roots S W' R' τ' opens ∧ τ <+: τ' ∧ ∀ τ'', τ' <+: τ'' → agrees τ'' v

end Invariant

namespace Inv

variable {P : Program} {roots : List NodeId} {S : ByteArray}

/-- The invariant holds as the reader's cursor moves over bytes ahead of it. -/
theorem advance {W : TreeWriter} {R : TreeReader} {τ opens : List NodeId}
    (inv : Inv P roots S W R τ opens) {bs rest : List UInt8} (ahead : R.cursor.ahead = bs ++ rest) :
    Inv P roots S W { R with cursor := R.cursor.advance bs.length } τ opens :=
  { inv with
    numbered := le_trans inv.numbered (by simp [Cursor.advance])
    cursorInside := Cursor.pos_add_le_of_ahead ahead inv.cursorInside
    cursorSmall := inv.cursorSmall }

/-- The invariant holds as the reader's cursor moves over one tag byte. -/
theorem advanceTag {W : TreeWriter} {R : TreeReader} {τ opens : List NodeId}
    (inv : Inv P roots S W R τ opens) {t : UInt8} {bs rest : List UInt8}
    (ahead : R.cursor.ahead = (t :: bs) ++ rest) :
    Inv P roots S W { R with cursor := R.cursor.advance 1 } τ opens :=
  inv.advance (show R.cursor.ahead = [t] ++ (bs ++ rest) from ahead)

end Inv

namespace ReadsBack

variable {P : Program} {roots : List NodeId} {S : ByteArray} {opens : List NodeId}
  {W W₁ W₂ : TreeWriter} {fuel : Nat}

theorem pure {α : Type} (v : α) : ReadsBack P roots S opens W W [] fuel (Pure.pure v : ReadM α)
    (fun _ x => x = v) := by
  intro R τ rest inv _ _ _ _
  exact ⟨v, R, τ, rfl, rfl, inv, List.prefix_refl _, fun _ _ => rfl⟩

theorem mono {α : Type} {read : ReadM α} {bs : List UInt8} {A B : List NodeId → α → Prop}
    (reads : ReadsBack P roots S opens W W₁ bs fuel read A) (weaker : ∀ τ v, A τ v → B τ v) :
    ReadsBack P roots S opens W W₁ bs fuel read B := by
  intro R τ rest inv extended ahead budget bound
  obtain ⟨v, R', τ', run, cursor, inv', grown, agrees⟩ :=
    reads R τ rest inv extended ahead budget bound
  exact ⟨v, R', τ', run, cursor, inv', grown, fun τ'' longer => weaker τ'' v (agrees τ'' longer)⟩

/-- Reading one part and then the next reads what the two writes appended;
the second part may depend on the value of the first. -/
theorem bind {α β : Type} {ra : ReadM α} {rb : α → ReadM β} {bs₁ bs₂ : List UInt8}
    {A : List NodeId → α → Prop} {B : α → List NodeId → β → Prop}
    (first : ReadsBack P roots S opens W W₁ bs₁ fuel ra A)
    (second : ∀ a τ, A τ a → ReadsBack P roots S opens W₁ W₂ bs₂ fuel (rb a) (B a))
    (grows : Grows W₁ W₂) :
    ReadsBack P roots S opens W W₂ (bs₁ ++ bs₂) fuel (ra >>= rb)
      (fun τ b => ∃ a, A τ a ∧ B a τ b) := by
  intro R τ rest inv extended ahead budget bound
  rw [List.append_assoc] at ahead
  rw [List.length_append] at budget
  obtain ⟨a, R₁, τ₁, run₁, cursor₁, inv₁, grown₁, agrees₁⟩ :=
    first R τ (bs₂ ++ rest) inv (grows.strings.trans extended) ahead (by omega) bound
  have ahead₁ : R₁.cursor.ahead = bs₂ ++ rest := by
    rw [cursor₁, Cursor.ahead_advance, ahead, List.drop_left]
  obtain ⟨b, R₂, τ₂, run₂, cursor₂, inv₂, grown₂, agrees₂⟩ :=
    second a τ₁ (agrees₁ τ₁ (List.prefix_refl _)) R₁ τ₁ rest inv₁ extended ahead₁ (by omega) bound
  refine ⟨b, R₂, τ₂, ?_, ?_, inv₂, grown₁.trans grown₂, fun τ'' longer =>
    ⟨a, agrees₁ τ'' (grown₂.trans longer), agrees₂ τ'' longer⟩⟩
  · change EStateM.bind ra rb R = _
    rw [CursorM.bind_ok run₁, run₂]
  · rw [cursor₂, cursor₁, Cursor.advance_advance, List.length_append]

/-- A part read and then mapped by a function. -/
theorem map {α β : Type} {ra : ReadM α} {g : α → β} {bs : List UInt8} {A : List NodeId → α → Prop}
    (reads : ReadsBack P roots S opens W W₁ bs fuel ra A) :
    ReadsBack P roots S opens W W₁ bs fuel (ra >>= fun a => Pure.pure (g a))
      (fun τ b => ∃ a, A τ a ∧ b = g a) := by
  have both := reads.bind (fun a _ _ => ReadsBack.pure (g a)) (Grows.refl W₁)
  rwa [List.append_nil] at both

/-- A part read with a known value, passed to a continuation that reads nothing
more from that value. -/
theorem bind_pure_of_eq {α β : Type} {ra : ReadM α} {k : α → ReadM β} {bs : List UInt8} {a₀ : α}
    {b₀ : β} (reads : ReadsBack P roots S opens W W₁ bs fuel ra (fun _ a => a = a₀))
    (next : k a₀ = Pure.pure b₀) :
    ReadsBack P roots S opens W W₁ bs fuel (ra >>= k) (fun _ b => b = b₀) := by
  have following : ∀ a (_ : List NodeId), a = a₀ →
      ReadsBack P roots S opens W₁ W₁ [] fuel (k a) (fun _ b => b = b₀) := by
    intro a _ known
    rw [known, next]
    exact ReadsBack.pure b₀
  have both := reads.bind following (Grows.refl W₁)
  rw [List.append_nil] at both
  exact both.mono fun _ _ ⟨_, _, eq⟩ => eq

/-- A read of the cursor alone leaves the rest of the reader as it was. -/
theorem onCursor {α : Type} {m : CursorM α} {bs : List UInt8} {v : α}
    (run : ∀ (c : Cursor) (rest : List UInt8), c.ahead = bs ++ rest →
      m c = .ok v (c.advance bs.length)) :
    ReadsBack P roots S opens W W bs fuel (ReadM.onCursor m) (fun _ x => x = v) := by
  intro R τ rest inv _ ahead _ _
  refine ⟨v, { R with cursor := R.cursor.advance bs.length }, τ, ?_, rfl, inv.advance ahead,
    List.prefix_refl _, fun _ _ => rfl⟩
  simp [ReadM.onCursor, EStateM.run, run R.cursor rest ahead]

end ReadsBack

section Step

variable (P : Program) (roots : List NodeId) (S : ByteArray)

/-- A writer action and a reader action in step from the writer state `W`:
the writer appends `bs` and reaches `W'`, and the reader reads it back. -/
structure Step {α : Type} (fuel : Nat) (W : TreeWriter) (write : ByteArray → WriteM ByteArray)
    (read : ReadM α) (agrees : List NodeId → α → Prop) (bs : List UInt8) (W' : TreeWriter) :
    Prop where
  writes : Writes write W bs W'
  grows : Grows W W'
  readsBack : ∀ opens, ReadsBack P roots S opens W W' bs fuel read agrees

end Step

namespace Step

variable {P : Program} {roots : List NodeId} {S : ByteArray} {fuel : Nat} {W W₁ W₂ : TreeWriter}
  {bs₁ bs₂ : List UInt8}

/-- Two steps in sequence; the second reader may depend on what the first read. -/
theorem bind {α β : Type} [Inhabited α] {wa wb : ByteArray → WriteM ByteArray} {ra : ReadM α}
    {rb : α → ReadM β} {A : List NodeId → α → Prop} {B : α → List NodeId → β → Prop}
    (first : Step P roots S fuel W wa ra A bs₁ W₁)
    (second : ∀ a, Step P roots S fuel W₁ wb (rb a) (B a) bs₂ W₂) :
    Step P roots S fuel W (fun out => wa out >>= wb) (ra >>= rb)
      (fun τ b => ∃ a, A τ a ∧ B a τ b) (bs₁ ++ bs₂) W₂ where
  writes := first.writes.bind (second default).writes
  grows := first.grows.trans (second default).grows
  readsBack opens :=
    (first.readsBack opens).bind (fun a _ _ => (second a).readsBack opens) (second default).grows

/-- Two steps in sequence, the first reading a value known in advance. -/
theorem bind_eq {α β : Type} {wa wb : ByteArray → WriteM ByteArray} {ra : ReadM α}
    {rb : α → ReadM β} {a₀ : α} {B : List NodeId → β → Prop}
    (first : Step P roots S fuel W wa ra (fun _ a => a = a₀) bs₁ W₁)
    (second : Step P roots S fuel W₁ wb (rb a₀) B bs₂ W₂) :
    Step P roots S fuel W (fun out => wa out >>= wb) (ra >>= rb) B (bs₁ ++ bs₂) W₂ where
  writes := first.writes.bind second.writes
  grows := first.grows.trans second.grows
  readsBack opens := by
    have following : ∀ a (_ : List NodeId), a = a₀ →
        ReadsBack P roots S opens W₁ W₂ bs₂ fuel (rb a) B := by
      intro a _ known
      rw [known]
      exact second.readsBack opens
    exact ((first.readsBack opens).bind following second.grows).mono fun _ _ ⟨_, _, agrees⟩ =>
      agrees

/-- Two steps in sequence, the second in step only on values that agree with
what the first wrote. -/
theorem bind_of_agrees {α β : Type} {wa wb : ByteArray → WriteM ByteArray} {ra : ReadM α}
    {rb : α → ReadM β} {A : List NodeId → α → Prop} {B : α → List NodeId → β → Prop}
    (first : Step P roots S fuel W wa ra A bs₁ W₁) (writes : Writes wb W₁ bs₂ W₂) (grows : Grows W₁ W₂)
    (second : ∀ a τ, A τ a → ∀ opens, ReadsBack P roots S opens W₁ W₂ bs₂ fuel (rb a) (B a)) :
    Step P roots S fuel W (fun out => wa out >>= wb) (ra >>= rb) (fun τ b => ∃ a, A τ a ∧ B a τ b)
      (bs₁ ++ bs₂) W₂ where
  writes := first.writes.bind writes
  grows := first.grows.trans grows
  readsBack opens := (first.readsBack opens).bind (fun a τ agrees => second a τ agrees opens) grows

/-- A step whose value is then passed through a function. -/
theorem map {α β : Type} {write : ByteArray → WriteM ByteArray} {read : ReadM α} {g : α → β}
    {A : List NodeId → α → Prop} (step : Step P roots S fuel W write read A bs₁ W₁) :
    Step P roots S fuel W write (read >>= fun a => pure (g a))
      (fun τ b => ∃ a, A τ a ∧ b = g a) bs₁ W₁ where
  writes := step.writes
  grows := step.grows
  readsBack opens := (step.readsBack opens).map

/-- A step with a known value, passed to a continuation that reads nothing more. -/
theorem bind_pure_of_eq {α β : Type} {write : ByteArray → WriteM ByteArray} {ra : ReadM α}
    {k : α → ReadM β} {a₀ : α} {b₀ : β}
    (step : Step P roots S fuel W write ra (fun _ a => a = a₀) bs₁ W₁) (next : k a₀ = pure b₀) :
    Step P roots S fuel W write (ra >>= k) (fun _ b => b = b₀) bs₁ W₁ where
  writes := step.writes
  grows := step.grows
  readsBack opens := (step.readsBack opens).bind_pure_of_eq next

/-- A step whose value the reader checks and then keeps: where the value
agrees, the check passes. -/
theorem bind_pure_of_agrees {α β : Type} {write : ByteArray → WriteM ByteArray} {ra : ReadM α}
    {k : α → ReadM β} {g : α → β} {A : List NodeId → α → Prop}
    (step : Step P roots S fuel W write ra A bs₁ W₁) (passes : ∀ τ a, A τ a → k a = pure (g a)) :
    Step P roots S fuel W write (ra >>= k) (fun τ b => ∃ a, A τ a ∧ b = g a) bs₁ W₁ where
  writes := step.writes
  grows := step.grows
  readsBack opens := by
    have following : ∀ a τ, A τ a → ReadsBack P roots S opens W₁ W₁ [] fuel (k a) (fun _ b => b = g a) := by
      intro a τ agrees
      rw [passes τ a agrees]
      exact ReadsBack.pure (g a)
    have both := (step.readsBack opens).bind following (Grows.refl W₁)
    rwa [List.append_nil] at both

/-- A step through a writer that does the same as another. -/
theorem congr_write {α : Type} {write write' : ByteArray → WriteM ByteArray} {read : ReadM α}
    {A : List NodeId → α → Prop} (same : ∀ out, write out = write' out)
    (step : Step P roots S fuel W write' read A bs₁ W₁) : Step P roots S fuel W write read A bs₁ W₁ :=
  funext same ▸ step

theorem mono {α : Type} {write : ByteArray → WriteM ByteArray} {read : ReadM α}
    {A B : List NodeId → α → Prop} (step : Step P roots S fuel W write read A bs₁ W₁)
    (weaker : ∀ τ v, A τ v → B τ v) : Step P roots S fuel W write read B bs₁ W₁ where
  writes := step.writes
  grows := step.grows
  readsBack opens := (step.readsBack opens).mono weaker

/-- Nothing written, a value read off nothing. -/
theorem nil {α : Type} (v : α) (W : TreeWriter) :
    Step P roots S fuel W (fun out => Pure.pure out) (Pure.pure v : ReadM α) (fun _ x => x = v) [] W
    where
  writes out := ⟨out, rfl, by simp⟩
  grows := Grows.refl W
  readsBack _ := ReadsBack.pure v

/-- A field the writer appends as it is and the reader takes off the cursor. -/
theorem field {α : Type} {g : ByteArray → ByteArray} {bs : List UInt8} {m : CursorM α} {v : α}
    (appends : ∀ out, (g out).data.toList = out.data.toList ++ bs)
    (run : ∀ (c : Cursor) (rest : List UInt8), c.ahead = bs ++ rest →
      m c = .ok v (c.advance bs.length)) (W : TreeWriter) :
    Step P roots S fuel W (fun out => pure (g out)) (ReadM.onCursor m) (fun _ x => x = v) bs W where
  writes := Writes.append appends W
  grows := Grows.refl W
  readsBack _ := ReadsBack.onCursor run

theorem u8 (b : UInt8) (W : TreeWriter) :
    Step P roots S fuel W (fun out => pure (Out.u8 out b)) (ReadM.onCursor CursorM.readU8)
      (fun _ x => x = b) [b] W :=
  field (Bytes.u8_data · b) (fun _ _ ahead => CursorM.readU8_of_ahead ahead) W

theorem uleb (v : UInt64) (W : TreeWriter) :
    Step P roots S fuel W (fun out => pure (Out.uleb out v)) (ReadM.onCursor CursorM.readUleb)
      (fun _ x => x = v) (Leb128.ofUInt64 v) W :=
  field (Bytes.uleb_data · v) (fun _ _ ahead => CursorM.readUleb_of_ahead ahead) W

theorem sleb (v : Int64) (W : TreeWriter) :
    Step P roots S fuel W (fun out => pure (Out.sleb out v)) (ReadM.onCursor CursorM.readSleb)
      (fun _ x => x = v) (Leb128.ofInt64 v) W :=
  field (Bytes.sleb_data · v) (fun _ _ ahead => CursorM.readSleb_of_ahead ahead) W

/-- A 32-bit field, written as a varint and read through the 32-bit check. -/
theorem scalar (v : UInt32) (W : TreeWriter) :
    Step P roots S fuel W (fun out => pure (Out.uleb out v.toUInt64)) (ReadM.onCursor CursorM.readU32)
      (fun _ x => x = v) (Leb128.ofUInt64 v.toUInt64) W :=
  field (Bytes.uleb_data · v.toUInt64) (fun _ _ ahead => CursorM.readU32_of_ahead ahead) W

/-- A count that the reader checks against the bytes left: no larger than the
bytes that follow, it passes and reads nothing. -/
theorem checkCount_bind {α : Type} {write : ByteArray → WriteM ByteArray} {k : Nat → ReadM α}
    {A : List NodeId → α → Prop} {what : String} {count : UInt64} {n : Nat} (value : count.toNat = n)
    (bounded : n ≤ bs₁.length) (next : Step P roots S fuel W write (k n) A bs₁ W₁) :
    Step P roots S fuel W write (ReadM.onCursor (CursorM.checkCount what count 0) >>= k) A bs₁ W₁ where
  writes := next.writes
  grows := next.grows
  readsBack opens := by
    intro R τ rest inv extended ahead budget bound
    have left := Cursor.length_le_remaining ahead
    have step : CursorM.checkCount what count 0 R.cursor = .ok n R.cursor := by
      rw [← value]
      exact CursorM.checkCount_of_le (by omega)
    have check : ReadM.onCursor (CursorM.checkCount what count 0) R = .ok n R := by
      simp only [ReadM.onCursor, EStateM.run, step]
    obtain ⟨v, R', τ', run, cursor, inv', grown, agrees⟩ :=
      next.readsBack opens R τ rest inv extended ahead budget bound
    refine ⟨v, R', τ', ?_, cursor, inv', grown, agrees⟩
    show EStateM.bind _ k R = _
    rw [CursorM.bind_ok check, run]

end Step

section Strings

variable {P : Program} {roots : List NodeId} {S : ByteArray}

theorem size_lt_of_isPrefix {t : ByteArray} (extended : t.data.toList <+: S.data.toList)
    (small : S.size < 2 ^ 64) : t.size < 2 ^ 64 := by
  have := extended.length_le
  simp only [Array.length_toList] at this
  exact lt_of_le_of_lt this small

/-- The writer state after a string reference. -/
def afterRef (W : TreeWriter) (bytes : Option ByteArray) : TreeWriter :=
  { W with strings := (W.strings.writeRef .empty bytes).2 }

theorem stringRef_writes (W : TreeWriter) (bytes : Option ByteArray) :
    Writes (fun out => WriteM.stringRef out bytes) W
      (W.strings.writeRef .empty bytes).1.data.toList (afterRef W bytes) := by
  intro out
  refine ⟨(W.strings.writeRef out bytes).1, ?_, ?_⟩
  · have table : (W.strings.writeRef out bytes).2 = (W.strings.writeRef .empty bytes).2 := by
      rw [StringTable.writeRef_table, StringTable.writeRef_table]
    simp only [afterRef, ← table]
    rfl
  · rw [StringTable.writeRef_data, StringTable.writeRef_data]
    simp

theorem stringRef_grows (W : TreeWriter) (bytes : Option ByteArray) : Grows W (afterRef W bytes) := by
  refine ⟨rfl, rfl, rfl, fun _ _ found => found, ?_, rfl⟩
  simp only [afterRef, StringTable.writeRef_table]
  cases bytes with
  | none => exact List.prefix_refl _
  | some b => exact StringTable.intern_prefix _ b

/-- A string reference written in step resolves, in the finished stream, to
the bytes referred to. -/
theorem stringRef_resolves {W : TreeWriter} {R : TreeReader} {τ opens : List NodeId}
    (inv : Inv P roots S W R τ opens) (bytes : Option ByteArray)
    (extended : (afterRef W bytes).strings.stream.data.toList <+: S.data.toList) :
    ∃ offset, (W.strings.writeRef .empty bytes).1.data.toList = Leb128.ofUInt64 offset ∧
      StringReader.get S offset = .ok bytes ∧ Inv P roots S (afterRef W bytes) R τ opens := by
  have small := size_lt_of_isPrefix inv.stringsPrefix inv.stringsSmall
  obtain ⟨offset, data, holds, -, resolves⟩ :=
    StringTable.writeRef_spec inv.stringsHold small .empty bytes
  refine ⟨offset, by simpa using data, resolves S extended inv.stringsSmall, ?_⟩
  exact { inv with stringsHold := holds, stringsPrefix := extended }

theorem readRef_readsBack (W : TreeWriter) (bytes : Option ByteArray) (opens : List NodeId)
    (fuel : Nat) :
    ReadsBack P roots S opens W (afterRef W bytes) (W.strings.writeRef .empty bytes).1.data.toList
      fuel ReadM.readRef (fun _ v => v = bytes) := by
  intro R τ rest inv extended ahead _ _
  obtain ⟨offset, data, resolved, inv'⟩ := stringRef_resolves inv bytes extended
  rw [data] at ahead
  refine ⟨bytes, { R with cursor := R.cursor.advance (Leb128.ofUInt64 offset).length }, τ, ?_,
    by rw [data], inv'.advance ahead, List.prefix_refl _, fun _ _ => rfl⟩
  simp [ReadM.readRef, bind, EStateM.bind, get, getThe, MonadStateOf.get, EStateM.get,
    ReadM.onCursor, EStateM.run, inv.readerStrings, StringReader.readRef_of_ahead ahead resolved]

theorem readStr_readsBack (W : TreeWriter) (text : String) (opens : List NodeId) (fuel : Nat) :
    ReadsBack P roots S opens W (afterRef W (some text.toUTF8))
      (W.strings.writeRef .empty (some text.toUTF8)).1.data.toList fuel ReadM.readStr
      (fun _ v => v = some text) := by
  intro R τ rest inv extended ahead _ _
  obtain ⟨offset, data, resolved, inv'⟩ := stringRef_resolves inv (some text.toUTF8) extended
  rw [data] at ahead
  refine ⟨some text, { R with cursor := R.cursor.advance (Leb128.ofUInt64 offset).length }, τ, ?_,
    by rw [data], inv'.advance ahead, List.prefix_refl _, fun _ _ => rfl⟩
  simp [ReadM.readStr, bind, EStateM.bind, get, getThe, MonadStateOf.get, EStateM.get,
    ReadM.onCursor, EStateM.run, inv.readerStrings,
    StringReader.readStr_of_ahead ahead resolved (StringReader.text_toUTF8 offset text)]

/-- A string entry that must be present, in step. -/
theorem requiredRef_step (W : TreeWriter) (bytes : ByteArray) (fuel : Nat) :
    Step P roots S fuel W (fun out => WriteM.stringRef out (some bytes)) ReadM.requiredRef
      (fun _ v => v = bytes) (W.strings.writeRef .empty (some bytes)).1.data.toList
      (afterRef W (some bytes)) where
  writes := stringRef_writes W _
  grows := stringRef_grows W _
  readsBack opens := (readRef_readsBack W (some bytes) opens fuel).bind_pure_of_eq (by rfl)

/-- A text that must be present, in step. -/
theorem requiredStr_step (W : TreeWriter) (text : String) (fuel : Nat) :
    Step P roots S fuel W (fun out => WriteM.stringRef out (some text.toUTF8)) ReadM.requiredStr
      (fun _ v => v = text) (W.strings.writeRef .empty (some text.toUTF8)).1.data.toList
      (afterRef W (some text.toUTF8)) where
  writes := stringRef_writes W _
  grows := stringRef_grows W _
  readsBack opens := (readStr_readsBack W text opens fuel).bind_pure_of_eq (by rfl)

end Strings

section FlagWord

variable {P : Program} {roots : List NodeId} {S : ByteArray}

/-- The writer state after a flag word. -/
def afterFlags (W : TreeWriter) (packed : Nat) (locus : Option Locus) : TreeWriter :=
  let written := W.position.write .empty W.strings packed.toUInt64 locus
  { W with strings := written.2.1, position := written.2.2 }

/-- A flag word with its position reads back as the attributes and the
position written. -/
theorem flagWord_step {W : TreeWriter} (ok : WriterOk P W) {packed : Nat} (small : packed < 2 ^ 60)
    (locus : Option Locus) (fuel : Nat) :
    Step P roots S fuel W (fun out => WriteM.flagWord out packed locus) ReadM.flagWord
      (fun _ v => v = (packed.toUInt64, locus))
      (W.position.write .empty W.strings packed.toUInt64 locus).1.data.toList
      (afterFlags W packed locus) where
  writes out := by
    obtain ⟨data, rest⟩ := PositionWriter.write_out W.position out W.strings packed.toUInt64 locus
    refine ⟨(W.position.write out W.strings packed.toUInt64 locus).1, ?_, data⟩
    simp only [WriteM.flagWord, afterFlags, ← rest]
    rfl
  grows := by
    obtain ⟨grown, enabled⟩ := PositionWriter.write_grows W.position .empty W.strings
      packed.toUInt64 locus
    exact ⟨rfl, rfl, enabled, fun _ _ found => found, grown, rfl⟩
  readsBack opens := by
    intro R τ rest inv extended ahead _ _
    have packedSmall : packed.toUInt64.toNat < 2 ^ 60 := by
      rw [Nat.toUInt64_eq, UInt64.toNat_ofNat_of_lt' (lt_trans small (by norm_num))]
      exact small
    let written := W.position.write .empty W.strings packed.toUInt64 locus
    obtain ⟨bs, data, holds, -, -, reads⟩ := PositionReader.read_write ok.enabled inv.stringsHold
      (size_lt_of_isPrefix inv.stringsPrefix inv.stringsSmall) .empty packedSmall locus
      (show written = (written.1, written.2.1, written.2.2) from rfl)
    have empty : ByteArray.empty.data.toList = [] := rfl
    rw [empty, List.nil_append] at data
    rw [data] at ahead
    have run := reads S extended inv.stringsSmall R.cursor rest ahead
    refine ⟨(packed.toUInt64, locus),
      { R with cursor := R.cursor.advance bs.length,
               last := (W.position.write .empty W.strings packed.toUInt64 locus).2.2.last },
      τ, ?_, by rw [data], ?_, List.prefix_refl _, fun _ _ => rfl⟩
    · simp [ReadM.flagWord, bind, EStateM.bind, get, getThe, MonadStateOf.get, EStateM.get,
        ReadM.onCursor, EStateM.run, inv.readerStrings, inv.last, run, modify, modifyGet,
        MonadStateOf.modifyGet, EStateM.modifyGet, pure, EStateM.pure]
      rfl
    · exact { inv.advance ahead with stringsHold := holds, stringsPrefix := extended, last := rfl }

end FlagWord

end TreeCodec

end IrStream
