import Mathlib
import IrStream.Proofs.Wire
import IrStream.Section.Header

/-!
Section framing read back. `SectionData.write` puts a header of little-endian
words before a section's streams: the version, the kind, the body counts for a
function body, and each stream's size. Parsing what it wrote gives back the
kind, the counts and every stream's bytes under the kind's stream names
(`SectionData.parse_write`), and the write fails only when the streams are not
the kind's or one does not fit its 32-bit size word (`SectionData.write_ok`).
-/

namespace IrStream

namespace SectionData

/-- The little-endian bytes of a 32-bit word. -/
def word32 (v : UInt32) : List UInt8 :=
  [v.toUInt8, (v >>> 8).toUInt8, (v >>> 16).toUInt8, (v >>> 24).toUInt8]

@[simp] theorem length_word32 (v : UInt32) : (word32 v).length = 4 := rfl

theorem length_flatMap_word32 (words : List UInt32) : (words.flatMap word32).length = 4 * words.length := by
  induction words with
  | nil => rfl
  | cons w words ih => simp [ih]; omega

/-- The bytes of a framed section: version, kind, the counts of a function
body, the stream sizes, then the streams back to back. -/
def framed (kind : SectionKind) (counts : BodyCounts) (streams : List (String × ByteArray)) :
    List UInt8 :=
  [majorVersion.toUInt8, (majorVersion >>> 8).toUInt8, minorVersion.toUInt8,
    (minorVersion >>> 8).toUInt8, kind.code.toUInt8, (kind.code >>> 8).toUInt8] ++
  (if kind = .functionBody then
    word32 counts.localDecls ++ word32 counts.namedLabels ++ word32 counts.unnamedLabels
  else []) ++
  streams.flatMap (fun s => word32 s.2.size.toUInt32) ++
  streams.flatMap (fun s => s.2.data.toList)

theorem foldl_u32le_data (streams : List (String × ByteArray)) (out : ByteArray) :
    (streams.foldl (fun out s => Out.u32le out s.2.size.toUInt32) out).data.toList =
      out.data.toList ++ streams.flatMap (fun s => word32 s.2.size.toUInt32) := by
  induction streams generalizing out with
  | nil => simp
  | cons s streams ih => simp [ih, word32]

theorem foldl_bytes_data (streams : List (String × ByteArray)) (out : ByteArray) :
    (streams.foldl (fun out s => Out.bytes out s.2) out).data.toList =
      out.data.toList ++ streams.flatMap (fun s => s.2.data.toList) := by
  induction streams generalizing out with
  | nil => simp
  | cons s streams ih => simp [ih]

/-- Framing succeeds exactly when the streams are the kind's, in order, and
each fits its size word; it then writes `framed`. -/
theorem write_ok {kind : SectionKind} {counts : BodyCounts} {streams : List (String × ByteArray)}
    (names : streams.map (·.1) = kind.streams.map StreamId.name)
    (small : ∀ s ∈ streams, s.2.size < 2 ^ 32) :
    ∃ bytes, write kind counts streams = .ok bytes ∧ bytes.data.toList = framed kind counts streams := by
  have fits : streams.find? (fun s => Nat.pow 2 32 ≤ s.2.size) = none := by
    rw [List.find?_eq_none]
    intro s member
    have := small s member
    simp only [decide_eq_true_eq, not_le]
    exact this
  refine ⟨_, by simp only [write, names, bne_self_eq_false, fits]; rfl, ?_⟩
  by_cases body : kind = .functionBody
  · simp [framed, body, foldl_bytes_data, foldl_u32le_data, word32]
  · simp [framed, body, foldl_bytes_data, foldl_u32le_data]

/-- The size words read back, one per stream. -/
theorem mapM_readU32le_of_ahead {α : Type} :
    ∀ (ids : List α) (words : List UInt32) {c : Cursor} {rest : List UInt8},
      ids.length = words.length → c.ahead = words.flatMap word32 ++ rest → c.pos ≤ c.data.size →
      (ids.mapM fun _ => CursorM.readU32le) c = .ok words (c.advance (4 * words.length))
  | [], [], c, _, _, _, _ => rfl
  | _ :: ids, w :: words, c, rest, length, ahead, inside => by
    have split : c.ahead = word32 w ++ (words.flatMap word32 ++ rest) := by
      rw [ahead, List.flatMap_cons, List.append_assoc]
    have first : CursorM.readU32le c = .ok w (c.advance 4) := CursorM.readU32le_of_ahead split inside
    have ahead' : (c.advance 4).ahead = words.flatMap word32 ++ rest := by
      simp [split, word32]
    have inside' := Cursor.pos_add_le_of_ahead split inside
    have more := mapM_readU32le_of_ahead ids words (Nat.succ.inj length) ahead'
      (by simpa [Cursor.advance, word32] using inside')
    simp only [List.mapM_cons, bind, EStateM.bind, first, more, pure, EStateM.pure,
      Cursor.advance_advance, List.length_cons]
    congr 2
    omega

/-- Each stream's bytes read back in turn. -/
theorem readStreams_of_ahead :
    ∀ (ids : List StreamId) (datas : List ByteArray) {c : Cursor} {rest : List UInt8},
      ids.length = datas.length → (∀ d ∈ datas, d.size < 2 ^ 32) →
      c.ahead = datas.flatMap (·.data.toList) ++ rest → c.pos ≤ c.data.size →
      readStreams (ids.zip (datas.map (·.size.toUInt32))) c =
        .ok (ids.zip datas) (c.advance (datas.flatMap (·.data.toList)).length)
  | [], [], c, _, _, _, _, _ => rfl
  | id :: ids, d :: datas, c, rest, length, small, ahead, inside => by
    have size : d.size.toUInt32.toNat = d.data.toList.length := by
      rw [Nat.toUInt32_eq, UInt32.toNat_ofNat_of_lt' (small d List.mem_cons_self)]
      rfl
    have split : c.ahead = d.data.toList ++ (datas.flatMap (·.data.toList) ++ rest) := by
      rw [ahead, List.flatMap_cons, List.append_assoc]
    obtain ⟨b, read, data⟩ := CursorM.readBytes_of_ahead split inside
    have same : b = d := by
      cases b
      cases d
      simp only [ByteArray.mk.injEq]
      exact Array.ext' data
    subst same
    have ahead' : (c.advance b.data.toList.length).ahead = datas.flatMap (·.data.toList) ++ rest := by
      simp [split]
    have inside' := Cursor.pos_add_le_of_ahead split inside
    have more := readStreams_of_ahead ids datas (Nat.succ.inj length)
      (fun d member => small d (List.mem_cons_of_mem _ member)) ahead' inside'
    simp only [List.map_cons, List.zip_cons_cons, readStreams, bind, EStateM.bind, get, getThe,
      MonadStateOf.get, EStateM.get, tryCatch, tryCatchThe, MonadExceptOf.tryCatch,
      EStateM.tryCatch, size, read, more, pure, EStateM.pure, Cursor.advance_advance,
      List.flatMap_cons, List.length_append]

theorem ofCode?_code (kind : SectionKind) : SectionKind.ofCode? kind.code = some kind := by
  cases kind <;> rfl

/-- A cursor moved over bytes ahead of it: what follows them is ahead, and
it is still inside its stream. -/
theorem advance_of_ahead {c : Cursor} {bs rest : List UInt8} {n : Nat} (ahead : c.ahead = bs ++ rest)
    (inside : c.pos ≤ c.data.size) (length : bs.length = n) :
    (c.advance n).ahead = rest ∧ (c.advance n).pos ≤ (c.advance n).data.size := by
  subst length
  exact ⟨by simp [ahead], Cursor.pos_add_le_of_ahead ahead inside⟩

/-- The counts of a function body section read back, whatever reads after
them; other kinds have none. -/
theorem readCounts_of_ahead {kind : SectionKind} {counts : BodyCounts} {c : Cursor}
    {rest : List UInt8}
    (ahead : c.ahead = (if kind = SectionKind.functionBody then
      word32 counts.localDecls ++ word32 counts.namedLabels ++ word32 counts.unnamedLabels
      else []) ++ rest) (inside : c.pos ≤ c.data.size) :
    ∃ c', c'.ahead = rest ∧ c'.pos ≤ c'.data.size ∧ ∀ {β : Type} (k : BodyCounts → CursorM β),
      (if kind = SectionKind.functionBody then
        EStateM.bind CursorM.readU32le fun localDecls =>
          EStateM.bind CursorM.readU32le fun namedLabels =>
            EStateM.bind CursorM.readU32le fun unnamedLabels =>
              EStateM.bind (pure { localDecls, namedLabels, unnamedLabels }) k
      else EStateM.bind (pure {}) k) c = k (if kind = SectionKind.functionBody then counts else {}) c' := by
  by_cases body : kind = SectionKind.functionBody
  · simp only [body, if_true, List.append_assoc] at ahead ⊢
    have first := CursorM.readU32le_of_ahead ahead inside
    obtain ⟨ahead₁, inside₁⟩ := advance_of_ahead ahead inside (length_word32 _)
    have second := CursorM.readU32le_of_ahead ahead₁ inside₁
    obtain ⟨ahead₂, inside₂⟩ := advance_of_ahead ahead₁ inside₁ (length_word32 _)
    have third := CursorM.readU32le_of_ahead ahead₂ inside₂
    obtain ⟨ahead₃, inside₃⟩ := advance_of_ahead ahead₂ inside₂ (length_word32 _)
    refine ⟨_, ahead₃, inside₃, fun k => ?_⟩
    simp only [EStateM.bind, first, second, third, pure, EStateM.pure]
  · simp only [body, if_false, List.nil_append] at ahead ⊢
    exact ⟨c, ahead, inside, fun k => rfl⟩

/-- The header a framed section carries: the current version, the kind, the
counts of a function body (the default counts for another kind), and each
stream's size. -/
def framedHeader (kind : SectionKind) (counts : BodyCounts) (streams : List (String × ByteArray)) :
    SectionHeader where
  major := majorVersion
  minor := minorVersion
  kind := kind
  counts := if kind = .functionBody then counts else {}
  streamSizes := streams.map (·.2.size.toUInt32)

/-- The header of a framed section read back, and the streams after it. -/
theorem readHeader_of_ahead {kind : SectionKind} {counts : BodyCounts}
    {streams : List (String × ByteArray)} {c : Cursor} {rest : List UInt8}
    (names : streams.map (·.1) = kind.streams.map StreamId.name)
    (small : ∀ s ∈ streams, s.2.size < 2 ^ 32)
    (ahead : c.ahead = framed kind counts streams ++ rest) (inside : c.pos ≤ c.data.size) :
    ∃ c', readHeader kind c = .ok
      { header := framedHeader kind counts streams,
        streams := kind.streams.zip (streams.map (·.2)) } c' := by
  have length : kind.streams.length = streams.length := by
    simpa using (congrArg List.length names).symm
  simp only [framed, List.append_assoc, List.cons_append, List.nil_append] at ahead
  -- the version and the kind, two bytes each
  have major := CursorM.readU16le_of_ahead (v := majorVersion) ahead inside
  obtain ⟨ahead₁, inside₁⟩ := @advance_of_ahead _ [_, _] _ 2 ahead inside rfl
  have minor := CursorM.readU16le_of_ahead (v := minorVersion) ahead₁ inside₁
  obtain ⟨ahead₂, inside₂⟩ := @advance_of_ahead _ [_, _] _ 2 ahead₁ inside₁ rfl
  have code := CursorM.readU16le_of_ahead (v := kind.code) ahead₂ inside₂
  obtain ⟨ahead₃, inside₃⟩ := @advance_of_ahead _ [_, _] _ 2 ahead₂ inside₂ rfl
  obtain ⟨c₄, ahead₄, inside₄, counted⟩ := readCounts_of_ahead ahead₃ inside₃
  -- one size word per stream, then the streams
  have sizesAhead : c₄.ahead = (streams.map (·.2.size.toUInt32)).flatMap word32 ++
      ((streams.map (·.2)).flatMap (·.data.toList) ++ rest) := by
    rw [ahead₄, List.flatMap_map, List.flatMap_map]
  have sizes := mapM_readU32le_of_ahead kind.streams (streams.map (·.2.size.toUInt32))
    (by simp [length]) sizesAhead inside₄
  obtain ⟨ahead₅, inside₅⟩ := advance_of_ahead sizesAhead inside₄ (length_flatMap_word32 _)
  have fit : ∀ d ∈ streams.map (·.2), d.size < 2 ^ 32 := by
    intro d member
    obtain ⟨s, inStreams, rfl⟩ := List.mem_map.1 member
    exact small s inStreams
  have datas := readStreams_of_ahead kind.streams (streams.map (·.2)) (by simp [length]) fit
    ahead₅ inside₅
  simp only [List.map_map, Function.comp_def] at datas
  refine ⟨?_, ?_⟩
  swap
  unfold readHeader
  simp only [bind]
  rw [CursorM.bind_ok major, CursorM.bind_ok minor]
  simp only [bne_self_eq_false, Bool.false_eq_true, ↓reduceIte]
  rw [CursorM.bind_ok code]
  simp only [ofCode?_code, ↓reduceIte]
  rw [show ∀ {β : Type} (f : SectionKind → CursorM β) (s : Cursor),
    EStateM.bind (pure kind) f s = f kind s from fun _ _ => rfl, counted, CursorM.bind_ok sizes,
    CursorM.bind_ok datas]
  rfl

/-- A section framed from the kind's streams parses back to the header it
was framed with and, under the kind's stream names, each stream's bytes. -/
theorem parse_write_exact {kind : SectionKind} {counts : BodyCounts}
    {streams : List (String × ByteArray)}
    (names : streams.map (·.1) = kind.streams.map StreamId.name)
    (small : ∀ s ∈ streams, s.2.size < 2 ^ 32) :
    ∃ bytes, write kind counts streams = .ok bytes ∧ bytes.data.toList = framed kind counts streams ∧
      parse bytes kind = .ok
        { header := framedHeader kind counts streams,
          streams := kind.streams.zip (streams.map (·.2)) } := by
  obtain ⟨bytes, written, data⟩ := @write_ok _ counts _ names small
  have ahead : ({ name := "header", data := bytes } : Cursor).ahead =
      framed kind counts streams ++ [] := by
    simp [Cursor.ahead, data]
  obtain ⟨c, read⟩ := readHeader_of_ahead names small ahead (Nat.zero_le _)
  refine ⟨bytes, written, data, ?_⟩
  simp only [parse, Cursor.run, EStateM.run, read]

/-- A section framed from the kind's streams parses back: its header names the
kind (and carries the counts of a function body), and each stream comes back
with its bytes. -/
theorem parse_write {kind : SectionKind} {counts : BodyCounts} {streams : List (String × ByteArray)}
    (names : streams.map (·.1) = kind.streams.map StreamId.name)
    (small : ∀ s ∈ streams, s.2.size < 2 ^ 32) :
    ∃ bytes sec, write kind counts streams = .ok bytes ∧ parse bytes kind = .ok sec ∧
      sec.header.kind = kind ∧ (kind = .functionBody → sec.header.counts = counts) ∧
      sec.streams = kind.streams.zip (streams.map (·.2)) := by
  obtain ⟨bytes, written, -, parsed⟩ := @parse_write_exact _ counts _ names small
  exact ⟨bytes, _, written, parsed, rfl, fun body => by simp [framedHeader, body], rfl⟩

/-- Framing the kind's streams fails only for a stream too large for its
32-bit size word, and says which. -/
theorem write_error {kind : SectionKind} {counts : BodyCounts} {streams : List (String × ByteArray)}
    {e : StreamError} (names : streams.map (·.1) = kind.streams.map StreamId.name)
    (failed : write kind counts streams = .error e) :
    ∃ name data, (name, data) ∈ streams ∧ 2 ^ 32 ≤ data.size ∧
      e = .consistency s!"{name} stream exceeds 4 GiB" := by
  simp only [write, names, bne_self_eq_false, Bool.false_eq_true, if_false] at failed
  split at failed
  · next name data found =>
    have large := List.find?_some found
    exact ⟨name, data, List.mem_of_find?_eq_some found, by simpa using large,
      (Except.error.inj failed).symm⟩
  · cases failed

/-- A section that framed has streams that fit their size words. -/
theorem small_of_write_ok {kind : SectionKind} {counts : BodyCounts}
    {streams : List (String × ByteArray)} {bytes : ByteArray}
    (written : write kind counts streams = .ok bytes) : ∀ s ∈ streams, s.2.size < 2 ^ 32 := by
  unfold write at written
  split at written
  · cases written
  · split at written
    · cases written
    · next fits =>
      intro s member
      have small := List.find?_eq_none.1 fits s member
      simpa using small

/-- The kind word is checked against the expected kind before anything after
it is read: a framed section read as another kind is refused with both kind
numbers. -/
theorem readHeader_other_kind {kind other : SectionKind} {counts : BodyCounts}
    {streams : List (String × ByteArray)} {c : Cursor} {rest : List UInt8}
    (ahead : c.ahead = framed kind counts streams ++ rest) (inside : c.pos ≤ c.data.size)
    (differs : other ≠ kind) :
    ∃ c', readHeader other c = .error (.badSectionKind kind.code other.code) c' := by
  simp only [framed, List.append_assoc, List.cons_append, List.nil_append] at ahead
  have major := CursorM.readU16le_of_ahead (v := majorVersion) ahead inside
  obtain ⟨ahead₁, inside₁⟩ := @advance_of_ahead _ [_, _] _ 2 ahead inside rfl
  have minor := CursorM.readU16le_of_ahead (v := minorVersion) ahead₁ inside₁
  obtain ⟨ahead₂, inside₂⟩ := @advance_of_ahead _ [_, _] _ 2 ahead₁ inside₁ rfl
  have code := CursorM.readU16le_of_ahead (v := kind.code) ahead₂ inside₂
  refine ⟨?_, ?_⟩
  swap
  unfold readHeader
  simp only [bind]
  rw [CursorM.bind_ok major, CursorM.bind_ok minor]
  simp only [bne_self_eq_false, Bool.false_eq_true, ↓reduceIte]
  rw [CursorM.bind_ok code]
  simp only [ofCode?_code, Ne.symm differs, ↓reduceIte]
  rfl

/-- A pair of a list whose first components are distinct is the first pair
with its first component. -/
theorem find?_fst_of_nodup {α β : Type} [BEq α] [LawfulBEq α] {l : List (α × β)} {a : α} {b : β}
    (nodup : (l.map (·.1)).Nodup) (mem : (a, b) ∈ l) : l.find? (·.1 == a) = some (a, b) := by
  induction l with
  | nil => cases mem
  | cons p l ih =>
    obtain ⟨fresh, nodup⟩ := List.nodup_cons.1 nodup
    rcases List.mem_cons.1 mem with rfl | later
    · simp
    · have other : p.1 ≠ a := by
        rintro same
        dsimp only at fresh
        rw [same] at fresh
        exact fresh (List.mem_map.2 ⟨_, later, rfl⟩)
      simp [other, ih nodup later]

/-- The bytes of a stream a section holds, when no stream is held twice. -/
theorem bytes_of_mem {sec : SectionData} {id : StreamId} {data : ByteArray}
    (nodup : (sec.streams.map (·.1)).Nodup) (mem : (id, data) ∈ sec.streams) :
    sec.bytes id = .ok data := by
  simp only [bytes, find?_fst_of_nodup nodup mem]

theorem streams_nodup (kind : SectionKind) : kind.streams.Nodup := by
  cases kind <;> decide

/-- Section framing round trip. For streams that each fit their size word,
framing fails with a consistency error exactly when the streams are not the
kind's, by name and in order. When they are, the framed bytes parse back as a
section of the current version 1.0 and of that kind, with the counts given
for a function body and the default counts for another kind, a size per
stream equal to its length, and each of the kind's streams holding the bytes
given for it; read as any other kind, the same bytes are refused for their
kind. -/
theorem framed_round_trip {kind : SectionKind} {counts : BodyCounts}
    {streams : List (String × ByteArray)} (small : ∀ s ∈ streams, s.2.size < 2 ^ 32) :
    ((∃ detail, write kind counts streams = .error (.consistency detail)) ↔
        streams.map (·.1) ≠ kind.streams.map StreamId.name) ∧
      (streams.map (·.1) = kind.streams.map StreamId.name →
        ∃ bytes sec, write kind counts streams = .ok bytes ∧ parse bytes kind = .ok sec ∧
          sec.header.major = 1 ∧ sec.header.minor = 0 ∧ sec.header.kind = kind ∧
          sec.header.counts = (if kind = .functionBody then counts else {}) ∧
          sec.header.streamSizes.map UInt32.toNat = streams.map (·.2.size) ∧
          (∀ p ∈ kind.streams.zip streams, sec.bytes p.1 = .ok p.2.2) ∧
          ∀ other, other ≠ kind → parse bytes other = .error (.badSectionKind kind.code other.code)) := by
  constructor
  · constructor
    · -- the kind's streams frame, so an error means the names differ
      rintro ⟨detail, failed⟩ names
      obtain ⟨bytes, written, -⟩ := @write_ok _ counts _ names small
      rw [written] at failed
      cases failed
    · intro names
      simp only [write, bne_iff_ne, ne_eq, names, not_false_eq_true, ↓reduceIte]
      exact ⟨_, rfl⟩
  · intro names
    obtain ⟨bytes, written, data, parsed⟩ := @parse_write_exact _ counts _ names small
    have ahead : ({ name := "header", data := bytes } : Cursor).ahead =
        framed kind counts streams ++ [] := by
      simp [Cursor.ahead, data]
    refine ⟨bytes, _, written, parsed, rfl, rfl, rfl, rfl, ?sizes, ?streams, ?others⟩
    case sizes =>
      simp only [framedHeader, List.map_map]
      refine List.map_congr_left fun s member => ?_
      simp only [Function.comp_apply]
      rw [Nat.toUInt32_eq, UInt32.toNat_ofNat_of_lt' (small s member)]
    case streams =>
      -- the section pairs each of the kind's streams with the bytes given for it
      rintro ⟨id, name, data⟩ member
      have length : kind.streams.length ≤ (streams.map (·.2)).length := by
        simpa using (congrArg List.length names).symm.le
      apply bytes_of_mem
      · simpa [List.map_fst_zip length] using streams_nodup kind
      · dsimp only
        rw [List.zip_map_right]
        exact List.mem_map.2 ⟨_, member, rfl⟩
    case others =>
      intro other differs
      obtain ⟨c, refused⟩ := readHeader_other_kind ahead (Nat.zero_le _) differs
      simp only [parse, Cursor.run, EStateM.run, refused]

/-- The seven streams of a function body section, the `i`-th holding `i`
bytes of value `i`. -/
def bodyStreams : List (String × ByteArray) :=
  StreamId.all.zipIdx.map fun p => (p.1.name, ⟨Array.replicate p.2 p.2.toUInt8⟩)

theorem bodyStreams_round_trip :
    (∀ s ∈ bodyStreams, s.2.size < 2 ^ 32) ∧
      (((∃ detail, write .functionBody ⟨1, 2, 3⟩ bodyStreams = .error (.consistency detail)) ↔
          bodyStreams.map (·.1) ≠ SectionKind.functionBody.streams.map StreamId.name) ∧
        (bodyStreams.map (·.1) = SectionKind.functionBody.streams.map StreamId.name →
          ∃ bytes sec, write .functionBody ⟨1, 2, 3⟩ bodyStreams = .ok bytes ∧
            parse bytes .functionBody = .ok sec ∧
            sec.header.major = 1 ∧ sec.header.minor = 0 ∧ sec.header.kind = .functionBody ∧
            sec.header.counts = (if SectionKind.functionBody = .functionBody then ⟨1, 2, 3⟩ else {}) ∧
            sec.header.streamSizes.map UInt32.toNat = bodyStreams.map (·.2.size) ∧
            (∀ p ∈ SectionKind.functionBody.streams.zip bodyStreams, sec.bytes p.1 = .ok p.2.2) ∧
            ∀ other, other ≠ .functionBody →
              parse bytes other = .error (.badSectionKind SectionKind.functionBody.code other.code))) :=
  ⟨by decide, framed_round_trip (by decide)⟩

end SectionData

end IrStream
