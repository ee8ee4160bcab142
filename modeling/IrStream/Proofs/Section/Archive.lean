import Mathlib
import IrStream.Proofs.Section.Framing
import IrStream.Section.Archive

/-!
# Archives: the section sink and the byte form

An archive is written one call at a time (`SinkCall`): a section is begun
under a name, bytes are appended to it, and ending it stores it. A call out
of turn is refused and the archive stays as it was (`Archive.after`). Every
run of calls from a new archive leaves it `Archive.Traced`
(`Archive.traced_run`):

* the names of the stored sections and of the open one are distinct; that at
  most one section is open is the type of `Archive.open?`;
* the open section was opened by a `begin` of the run, no `finish` came
  after it, and it holds the bytes of the appends since, in order
  (`Archive.Opened`); a stored section was open so until the `finish` that
  stored it (`Archive.Stored`).

The byte form is written exactly when the section count and every name and
content fit a 32-bit length word (`Archive.toBytes_ok_iff`), and reads back
as the same sections in the same order (`Archive.ofBytes_toBytes`).
-/

namespace IrStream

/-- A call to a section sink. -/
inductive SinkCall where
  | begin (name : String)
  | append (bytes : ByteArray)
  | finish

namespace SinkCall

/-- The bytes of the open section after a call that is not a `finish`. -/
def extend (data : ByteArray) : SinkCall → ByteArray
  | append bytes => data ++ bytes
  | _ => data

/-- The bytes appended by a run of calls, in order. -/
def appended (calls : List SinkCall) : ByteArray := calls.foldl extend .empty

theorem appended_concat (calls : List SinkCall) (c : SinkCall) :
    appended (calls ++ [c]) = extend (appended calls) c := by
  simp [appended]

end SinkCall

namespace Archive

/-- A new archive, with no section stored or open. -/
def new (name : String) : Archive := { name }

/-- A call made on an archive. -/
def call (a : Archive) : SinkCall → Except StreamError Archive
  | .begin name => a.beginSection name
  | .append bytes => a.appendBytes bytes
  | .finish => a.endSection

/-- The archive after a call: what the call made of it, or the archive as it
was if the call is refused. -/
def after (a : Archive) (c : SinkCall) : Archive :=
  match a.call c with
  | .ok a' => a'
  | .error _ => a

/-- The archive after a run of calls. -/
def run (a : Archive) (calls : List SinkCall) : Archive := calls.foldl after a

theorem run_concat (a : Archive) (calls : List SinkCall) (c : SinkCall) :
    a.run (calls ++ [c]) = (a.run calls).after c := by
  simp [run]

theorem section?_eq_none_iff {a : Archive} {name : String} :
    a.section? name = none ↔ name ∉ a.sections.map (·.1) := by
  simp only [section?, Option.map_eq_none_iff, List.find?_eq_none, beq_iff_eq, List.mem_map,
    not_exists, not_and]

/-! ### One call -/

section Call

variable {a : Archive}

theorem after_begin_of_open {current : String × ByteArray} (opened : a.open? = some current)
    (name : String) : a.after (.begin name) = a := by
  simp [after, call, beginSection, opened]

theorem after_begin_of_stored {name : String} (stored : name ∈ a.sections.map (·.1)) :
    a.after (.begin name) = a := by
  have found : (a.section? name).isSome := by
    rw [Option.isSome_iff_ne_none, Ne, section?_eq_none_iff, not_not]
    exact stored
  cases opened : a.open? <;> simp [after, call, beginSection, opened, found]

theorem after_begin {name : String} (closed : a.open? = none) (fresh : name ∉ a.sections.map (·.1)) :
    a.after (.begin name) = { a with open? := some (name, .empty) } := by
  simp [after, call, beginSection, closed, section?_eq_none_iff.2 fresh]

theorem after_append {name : String} {data : ByteArray} (opened : a.open? = some (name, data))
    (bytes : ByteArray) : a.after (.append bytes) = { a with open? := some (name, data ++ bytes) } := by
  simp [after, call, appendBytes, opened]

theorem after_finish {current : String × ByteArray} (opened : a.open? = some current) :
    a.after .finish = { a with sections := a.sections ++ [current], open? := none } := by
  simp [after, call, endSection, opened]

/-- With no section open, only a `begin` is taken. -/
theorem after_of_closed (closed : a.open? = none) {c : SinkCall} (notBegin : ∀ name, c ≠ .begin name) :
    a.after c = a := by
  cases c with
  | begin name => exact absurd rfl (notBegin name)
  | append bytes => simp [after, call, appendBytes, closed]
  | finish => simp [after, call, endSection, closed]

end Call

/-! ### Runs of calls -/

/-- Section `s` is open after `calls`: a `begin` of the run opened it, no
`finish` came after that, and it holds the bytes appended since. -/
def Opened (name : String) (calls : List SinkCall) (s : String × ByteArray) : Prop :=
  ∃ pre mid, calls = pre ++ .begin s.1 :: mid ∧
    ((new name).run (pre ++ [.begin s.1])).open? = some (s.1, .empty) ∧
    (∀ c ∈ mid, c ≠ .finish) ∧ s.2 = SinkCall.appended mid

/-- Section `s` was stored by a `finish` of `calls`, while it was open. -/
def Stored (name : String) (calls : List SinkCall) (s : String × ByteArray) : Prop :=
  ∃ upto post, calls = upto ++ .finish :: post ∧ Opened name upto s

/-- What a run of calls from a new archive leaves in archive `a`. -/
structure Traced (name : String) (calls : List SinkCall) (a : Archive) : Prop where
  distinct : (a.sections.map (·.1) ++ (a.open?.map (·.1)).toList).Nodup
  stored : ∀ s ∈ a.sections, Stored name calls s
  current : ∀ s, a.open? = some s → Opened name calls s

section Run

variable {name : String} {calls : List SinkCall}

theorem Stored.concat {s : String × ByteArray} (stored : Stored name calls s) (c : SinkCall) :
    Stored name (calls ++ [c]) s := by
  obtain ⟨upto, post, split, opened⟩ := stored
  exact ⟨upto, post ++ [c], by simp [split], opened⟩

theorem Opened.concat {s : String × ByteArray} (opened : Opened name calls s) {c : SinkCall}
    (notFinish : c ≠ .finish) : Opened name (calls ++ [c]) (s.1, SinkCall.extend s.2 c) := by
  obtain ⟨pre, mid, split, begun, unfinished, bytes⟩ := opened
  refine ⟨pre, mid ++ [c], by simp [split], begun, ?_, by rw [SinkCall.appended_concat, bytes]⟩
  intro c' member
  rcases List.mem_append.1 member with inMid | last
  · exact unfinished c' inMid
  · rw [List.mem_singleton.1 last]
    exact notFinish

theorem Opened.finish {s : String × ByteArray} (opened : Opened name calls s) :
    Stored name (calls ++ [.finish]) s :=
  ⟨calls, [], rfl, opened⟩

/-- A call the archive does not take, after a run with no section open or
before a `begin`, keeps what the run left. -/
theorem Traced.unchanged {a : Archive} (traced : Traced name calls a) {c : SinkCall}
    (closedOrBegin : a.open? = none ∨ ∃ n, c = .begin n) : Traced name (calls ++ [c]) a where
  distinct := traced.distinct
  stored s member := (traced.stored s member).concat c
  current s opened := by
    rcases closedOrBegin with closed | ⟨n, rfl⟩
    · rw [closed] at opened
      cases opened
    · simpa [SinkCall.extend] using (traced.current s opened).concat (c := .begin n) (by simp)

theorem traced_new (name : String) : Traced name [] (new name) where
  distinct := by simp [Archive.new]
  stored s member := by simp [Archive.new] at member
  current s opened := by simp [Archive.new] at opened

/-- One call keeps the trace of a run. -/
theorem Traced.concat (traced : Traced name calls ((new name).run calls)) (c : SinkCall) :
    Traced name (calls ++ [c]) ((new name).run (calls ++ [c])) := by
  rw [run_concat]
  set a := (new name).run calls with state
  have distinctNames : (a.sections.map (·.1)).Nodup := (List.nodup_append.1 traced.distinct).1
  cases opened : a.open? with
  | none =>
    cases c with
    | begin n =>
      by_cases stored : n ∈ a.sections.map (·.1)
      · rw [after_begin_of_stored stored]
        exact traced.unchanged (.inl opened)
      · -- the section is opened, under a name no stored section has
        have begun := after_begin opened stored
        refine ⟨?_, ?_, ?_⟩
        · simpa [begun] using distinctNames.append (List.nodup_singleton n)
            (List.disjoint_singleton.2 stored)
        · rw [begun]
          exact fun s member => (traced.stored s member).concat _
        · rw [begun]
          rintro s ⟨⟩
          exact ⟨calls, [], rfl, by rw [run_concat, ← state, begun], by simp, rfl⟩
    | append bytes =>
      rw [after_of_closed opened (by simp)]
      exact traced.unchanged (.inl opened)
    | finish =>
      rw [after_of_closed opened (by simp)]
      exact traced.unchanged (.inl opened)
  | some current =>
    obtain ⟨n, data⟩ := current
    cases c with
    | begin name' =>
      rw [after_begin_of_open opened]
      exact traced.unchanged (.inr ⟨name', rfl⟩)
    | append bytes =>
      -- the bytes go to the open section
      have appended := after_append opened bytes
      refine ⟨?_, ?_, ?_⟩
      · simpa [appended, opened] using traced.distinct
      · rw [appended]
        exact fun s member => (traced.stored s member).concat _
      · rw [appended]
        rintro s ⟨⟩
        exact (traced.current (n, data) opened).concat (c := .append bytes) (by simp)
    | finish =>
      -- the open section is stored after the others
      have finished := after_finish opened
      refine ⟨?_, ?_, ?_⟩
      · simpa [finished, opened] using traced.distinct
      · rw [finished]
        intro s member
        rcases List.mem_append.1 member with old | last
        · exact (traced.stored s old).concat _
        · rw [List.mem_singleton.1 last]
          exact (traced.current _ opened).finish
      · simp [finished]

/-- Every run of calls from a new archive leaves it traced. -/
theorem traced_run (name : String) (calls : List SinkCall) :
    Traced name calls ((new name).run calls) := by
  induction calls using List.reverseRecOn with
  | nil => exact traced_new name
  | append_singleton calls c ih => exact ih.concat c

end Run

/-! ### The byte form -/

theorem len32_of_lt {n : Nat} (small : n < 2 ^ 32) : len32 n = .ok n.toUInt32 := if_pos small

theorem len32_of_le {n : Nat} (large : 2 ^ 32 ≤ n) :
    len32 n = .error (.consistency "object member exceeds 4 GiB") :=
  if_neg (Nat.not_lt.2 large)

theorem toNat_toUInt32 {n : Nat} (small : n < 2 ^ 32) : n.toUInt32.toNat = n := by
  rw [Nat.toUInt32_eq, UInt32.toNat_ofNat_of_lt' small]

/-- A section whose name and content each fit a 32-bit length word. -/
def Fits (s : String × ByteArray) : Prop := s.1.utf8ByteSize < 2 ^ 32 ∧ s.2.size < 2 ^ 32

/-- One section in the byte form: its name's length, its name, its content's
length, its content. -/
def memberBytes (s : String × ByteArray) : List UInt8 :=
  SectionData.word32 s.1.utf8ByteSize.toUInt32 ++ s.1.toUTF8.data.toList ++
    SectionData.word32 s.2.size.toUInt32 ++ s.2.data.toList

theorem writeMember_ok (out : ByteArray) {s : String × ByteArray} (fits : Fits s) :
    ∃ out', writeMember out s = .ok out' ∧ out'.data.toList = out.data.toList ++ memberBytes s := by
  refine ⟨_, by simp only [writeMember, len32_of_lt fits.1, len32_of_lt fits.2]; rfl, ?_⟩
  simp [memberBytes, SectionData.word32]

theorem writeMember_error (out : ByteArray) {s : String × ByteArray} (large : ¬Fits s) :
    writeMember out s = .error (.consistency "object member exceeds 4 GiB") := by
  by_cases name : s.1.utf8ByteSize < 2 ^ 32
  · have content : 2 ^ 32 ≤ s.2.size := Nat.not_lt.1 fun small => large ⟨name, small⟩
    simp only [writeMember, len32_of_lt name, len32_of_le content]
    rfl
  · simp only [writeMember, len32_of_le (Nat.not_lt.1 name)]
    rfl

/-- Sections that all fit are written one after the other. -/
theorem foldlM_writeMember_ok :
    ∀ (sections : List (String × ByteArray)), (∀ s ∈ sections, Fits s) → ∀ out : ByteArray,
      ∃ out', sections.foldlM writeMember out = .ok out' ∧
        out'.data.toList = out.data.toList ++ sections.flatMap memberBytes
  | [], _, out => ⟨out, rfl, by simp⟩
  | s :: sections, fits, out => by
    obtain ⟨out₁, first, data₁⟩ := writeMember_ok out (fits s List.mem_cons_self)
    obtain ⟨out₂, rest, data₂⟩ :=
      foldlM_writeMember_ok sections (fun s' member => fits s' (List.mem_cons_of_mem _ member)) out₁
    refine ⟨out₂, ?_, by simp [data₂, data₁]⟩
    simp only [List.foldlM_cons, first]
    exact rest

/-- A section that does not fit stops the writing. -/
theorem foldlM_writeMember_error :
    ∀ (sections : List (String × ByteArray)), (∃ s ∈ sections, ¬Fits s) → ∀ out : ByteArray,
      ∃ e, sections.foldlM writeMember out = .error e
  | s :: sections, ⟨s', member, large⟩, out => by
    by_cases fits : Fits s
    · obtain ⟨out₁, first, -⟩ := writeMember_ok out fits
      have later : s' ∈ sections := by
        rcases List.mem_cons.1 member with rfl | later
        · exact absurd fits large
        · exact later
      obtain ⟨e, rest⟩ := foldlM_writeMember_error sections ⟨s', later, large⟩ out₁
      refine ⟨e, ?_⟩
      simp only [List.foldlM_cons, first]
      exact rest
    · exact ⟨_, by simp only [List.foldlM_cons, writeMember_error out fits]; rfl⟩

theorem toBytes_eq {a : Archive} (count : a.sections.length < 2 ^ 32) :
    a.toBytes = a.sections.foldlM writeMember (Out.u32le (Out.bytes .empty magic) a.sections.length.toUInt32) := by
  simp only [toBytes, len32_of_lt count]
  rfl

/-- The byte form is written exactly when the section count and every
section's name and content fit a 32-bit length word. -/
theorem toBytes_ok_iff (a : Archive) :
    (∃ bytes, a.toBytes = .ok bytes) ↔ a.sections.length < 2 ^ 32 ∧ ∀ s ∈ a.sections, Fits s := by
  constructor
  · rintro ⟨bytes, written⟩
    by_cases count : a.sections.length < 2 ^ 32
    · refine ⟨count, ?_⟩
      by_contra misfit
      push Not at misfit
      obtain ⟨e, failed⟩ := foldlM_writeMember_error a.sections misfit
        (Out.u32le (Out.bytes .empty magic) a.sections.length.toUInt32)
      rw [toBytes_eq count, failed] at written
      cases written
    · simp only [toBytes, len32_of_le (Nat.not_lt.1 count)] at written
      cases written
  · rintro ⟨count, fits⟩
    obtain ⟨out, folded, -⟩ := foldlM_writeMember_ok a.sections fits
      (Out.u32le (Out.bytes .empty magic) a.sections.length.toUInt32)
    exact ⟨out, by rw [toBytes_eq count, folded]⟩

/-- What the byte form holds: the magic word, the section count, then each
section. -/
theorem toBytes_data {a : Archive} {bytes : ByteArray} (written : a.toBytes = .ok bytes) :
    bytes.data.toList = magic.data.toList ++ SectionData.word32 a.sections.length.toUInt32 ++
      a.sections.flatMap memberBytes := by
  obtain ⟨count, fits⟩ := (toBytes_ok_iff a).1 ⟨bytes, written⟩
  obtain ⟨out, folded, data⟩ := foldlM_writeMember_ok a.sections fits
    (Out.u32le (Out.bytes .empty magic) a.sections.length.toUInt32)
  have same : out = bytes := by
    rw [toBytes_eq count, folded] at written
    exact Except.ok.inj written
  subst same
  simp [data, SectionData.word32]

theorem fromUTF8?_toUTF8 (s : String) : String.fromUTF8? s.toUTF8 = some s := by
  simp only [String.fromUTF8?, String.toUTF8_eq_toByteArray, dif_pos s.isValidUTF8]
  rfl

/-- The sections of the byte form read back, one after the other. -/
theorem readSections_of_ahead :
    ∀ (sections : List (String × ByteArray)) {c : Cursor} {rest : List UInt8},
      (∀ s ∈ sections, Fits s) → c.ahead = sections.flatMap memberBytes ++ rest →
      c.pos ≤ c.data.size →
      readSections sections.length c = .ok sections (c.advance (sections.flatMap memberBytes).length)
  | [], _, _, _, _, _ => rfl
  | s :: sections, c, rest, fits, ahead, inside => by
    obtain ⟨nameFits, contentFits⟩ := fits s List.mem_cons_self
    have nameLength : s.1.toUTF8.data.toList.length = s.1.utf8ByteSize := by simp
    simp only [List.flatMap_cons, memberBytes, List.append_assoc] at ahead
    -- the name's length and the name
    have nameWord := CursorM.readU32le_of_ahead ahead inside
    obtain ⟨ahead₁, inside₁⟩ := SectionData.advance_of_ahead ahead inside (SectionData.length_word32 _)
    obtain ⟨raw, nameRead, nameData⟩ := CursorM.readBytes_of_ahead ahead₁ inside₁
    have sameName : raw = s.1.toUTF8 := ByteArray.ext (Array.ext' nameData)
    obtain ⟨ahead₂, inside₂⟩ := SectionData.advance_of_ahead ahead₁ inside₁ rfl
    -- the content's length and the content
    have contentWord := CursorM.readU32le_of_ahead ahead₂ inside₂
    obtain ⟨ahead₃, inside₃⟩ := SectionData.advance_of_ahead ahead₂ inside₂ (SectionData.length_word32 _)
    obtain ⟨content, contentRead, contentData⟩ := CursorM.readBytes_of_ahead ahead₃ inside₃
    have sameContent : content = s.2 := ByteArray.ext (Array.ext' contentData)
    obtain ⟨ahead₄, inside₄⟩ := SectionData.advance_of_ahead ahead₃ inside₃ rfl
    have more := readSections_of_ahead sections
      (fun s' member => fits s' (List.mem_cons_of_mem _ member)) ahead₄ inside₄
    -- the length words read back as the lengths the reads are made with
    have nameCount : s.1.utf8ByteSize.toUInt32.toNat = s.1.toUTF8.data.toList.length := by
      rw [toNat_toUInt32 nameFits, nameLength]
    have contentCount : s.2.size.toUInt32.toNat = s.2.data.toList.length := by
      simp [toNat_toUInt32 contentFits]
    subst sameName sameContent
    simp only [List.length_cons, readSections, bind, EStateM.bind, nameWord, nameCount, nameRead,
      fromUTF8?_toUTF8, pure, EStateM.pure, contentWord, contentCount, contentRead, more]
    simp [memberBytes, Nat.add_assoc]

/-- An archive's byte form reads back as its sections, in order, under the
name it is read with. -/
theorem ofBytes_toBytes {a : Archive} {bytes : ByteArray} (written : a.toBytes = .ok bytes)
    (name : String) : ofBytes name bytes = .ok { name, sections := a.sections } := by
  obtain ⟨count, fits⟩ := (toBytes_ok_iff a).1 ⟨bytes, written⟩
  have ahead : ({ name := "object", data := bytes } : Cursor).ahead =
      magic.data.toList ++ (SectionData.word32 a.sections.length.toUInt32 ++
        (a.sections.flatMap memberBytes ++ [])) := by
    simp [Cursor.ahead, toBytes_data written]
  obtain ⟨word, magicRead, magicData⟩ := CursorM.readBytes_of_ahead ahead (Nat.zero_le _)
  have sameMagic : word = magic := ByteArray.ext (Array.ext' magicData)
  obtain ⟨ahead₁, inside₁⟩ := SectionData.advance_of_ahead ahead (Nat.zero_le _) rfl
  have countWord := CursorM.readU32le_of_ahead ahead₁ inside₁
  obtain ⟨ahead₂, inside₂⟩ := SectionData.advance_of_ahead ahead₁ inside₁ (SectionData.length_word32 _)
  have read := readSections_of_ahead a.sections fits ahead₂ inside₂
  rw [← toNat_toUInt32 count] at read
  subst sameMagic
  have same : (magic != magic) = false := by
    simp only [bne, BEq.beq, ByteArray.beq, Array.isEqv_self, Bool.not_true]
  simp only [ofBytes, Cursor.run, EStateM.run, readArchive, bind, EStateM.bind,
    show magic.size = magic.data.toList.length by simp, magicRead, same, countWord, read, pure,
    EStateM.pure, Bool.false_eq_true, if_false]

/-- Every run of sink calls from a new archive keeps the section names
distinct, and each section, stored or open, holds the bytes appended after
the `begin` that opened it. The byte form of an archive whose names and
contents fit their 32-bit length words is written exactly when the section
count fits its word too, and then reads back as the same sections, in order. -/
theorem archive_runs_and_round_trip :
    (∀ (name : String) (calls : List SinkCall), Traced name calls ((new name).run calls)) ∧
      ∀ (a : Archive) (name : String),
        (∀ s ∈ a.sections, s.1.utf8ByteSize < 2 ^ 32 ∧ s.2.size < 2 ^ 32) →
        ((∃ bytes, a.toBytes = .ok bytes) ↔ a.sections.length < 2 ^ 32) ∧
          ∀ bytes, a.toBytes = .ok bytes → (ofBytes name bytes).map (·.sections) = .ok a.sections := by
  refine ⟨traced_run, fun a name fits => ⟨?_, fun bytes written => ?_⟩⟩
  · rw [toBytes_ok_iff]
    exact ⟨fun written => written.1, fun count => ⟨count, fits⟩⟩
  · rw [ofBytes_toBytes written name]
    rfl

/-- Calls out of turn among those that write two sections: a nested `begin`,
a second `finish`, an append with no section open and a name written twice. -/
def sampleCalls : List SinkCall :=
  [.begin ".gnu.lto_.decls", .append ⟨#[1, 2]⟩, .begin "x", .append ⟨#[3]⟩, .finish, .finish,
    .append ⟨#[4]⟩, .begin ".gnu.lto_.decls", .begin ".gnu.lto_main", .finish]

theorem sampleCalls_round_trip :
    Traced "a.o" sampleCalls ((new "a.o").run sampleCalls) ∧
      ((new "a.o").run sampleCalls).sections =
        [(".gnu.lto_.decls", ⟨#[1, 2, 3]⟩), (".gnu.lto_main", .empty)] ∧
      ∃ bytes, ((new "a.o").run sampleCalls).toBytes = .ok bytes ∧
        (ofBytes "b.o" bytes).map (·.sections) = .ok ((new "a.o").run sampleCalls).sections := by
  have stored : ((new "a.o").run sampleCalls).sections =
      [(".gnu.lto_.decls", ⟨#[1, 2, 3]⟩), (".gnu.lto_main", .empty)] := by decide
  have fits : ∀ s ∈ ((new "a.o").run sampleCalls).sections,
      s.1.utf8ByteSize < 2 ^ 32 ∧ s.2.size < 2 ^ 32 := by
    rw [stored]
    decide
  obtain ⟨runs, byteForm⟩ := archive_runs_and_round_trip
  obtain ⟨written, readBack⟩ := byteForm _ "b.o" fits
  obtain ⟨bytes, toBytes⟩ := written.2 (by rw [stored]; decide)
  exact ⟨runs "a.o" sampleCalls, stored, bytes, toBytes, readBack bytes toBytes⟩

end Archive

end IrStream
