import Mathlib
import IrStream.Link.Resolution

/-!
# The resolution-file grammar

A resolution file is read line by line. What stands after a `#` is a comment;
the words before it make the line: none for a blank or comment line, `unit`
and a name for a unit header, and a symbol and a resolution name for an entry
of the last unit named. `ResolutionMap.parse` depends on a line only through
these words (`ResolutionMap.lineWords`), and the words are the pieces between
white space characters, so everything below rests on one equation,
`Text.words_append_space`: words split at a white space character.

Two results, put together as `ResolutionMap.parse_resolution_grammar`:

* `ResolutionMap.parse_render`: a file laid out as unit headers, each followed
  by its entries in their canonical plugin names, with blank lines and
  comments anywhere (`ResolutionFile`), reads back as its entries, the latest
  first; so a file that lays out a map reads back as that map;
* `ResolutionMap.parse_rejects_first_misfit`: a file whose line does not fit
  the grammar (`ResolutionMap.lineFits`), after lines that do, is refused at
  that line's number.
-/

namespace IrStream

namespace Text

theorem words_nil : words (String.ofList []) = [] := rfl

/-- Words split at a white space character: the words before it, then the
words after it. -/
theorem words_append_space {c : Char} (space : isSpace c = true) (before after : List Char) :
    words (String.ofList (before ++ c :: after)) =
      words (String.ofList before) ++ words (String.ofList after) := by
  simp only [words, String.toList_ofList, List.splitOnP_append_cons before after space,
    List.filter_append, List.map_append]

theorem words_cons_space {c : Char} (space : isSpace c = true) (after : List Char) :
    words (String.ofList (c :: after)) = words (String.ofList after) := by
  simpa only [List.nil_append, words_nil] using words_append_space space [] after

theorem words_spaces_append {spaces : List Char} (blank : ∀ c ∈ spaces, isSpace c = true)
    (cs : List Char) : words (String.ofList (spaces ++ cs)) = words (String.ofList cs) := by
  induction spaces with
  | nil => rfl
  | cons c spaces ih =>
    rw [List.cons_append, words_cons_space (blank c List.mem_cons_self)]
    exact ih fun d member => blank d (List.mem_cons_of_mem _ member)

theorem words_of_spaces {spaces : List Char} (blank : ∀ c ∈ spaces, isSpace c = true) :
    words (String.ofList spaces) = [] := by
  simpa only [List.append_nil, words_nil] using words_spaces_append blank []

theorem words_append_spaces (cs : List Char) {spaces : List Char}
    (blank : ∀ c ∈ spaces, isSpace c = true) :
    words (String.ofList (cs ++ spaces)) = words (String.ofList cs) := by
  cases spaces with
  | nil => simp
  | cons c spaces =>
    rw [words_append_space (blank c List.mem_cons_self),
      words_of_spaces fun d member => blank d (List.mem_cons_of_mem _ member), List.append_nil]

/-- A piece with no white space in it is one word. -/
theorem words_of_word {cs : List Char} (nonempty : cs ≠ []) (letters : ∀ c ∈ cs, isSpace c = false) :
    words (String.ofList cs) = [String.ofList cs] := by
  simp [words, List.splitOnP_eq_singleton letters, nonempty]

theorem words_eq_nil_iff {cs : List Char} :
    words (String.ofList cs) = [] ↔ ∀ c ∈ cs, isSpace c = true := by
  induction cs with
  | nil => exact ⟨fun _ _ member => absurd member List.not_mem_nil, fun _ => words_nil⟩
  | cons c cs ih =>
    cases space : isSpace c
    · -- a first character that is no white space starts the first word
      obtain ⟨first, later, pieces⟩ := List.exists_cons_of_ne_nil (List.splitOnP_ne_nil isSpace cs)
      simp [words, List.splitOnP_cons_eq_if_modifyHead, space, pieces]
    · rw [words_cons_space space, ih]
      simp [space]

/-- Trimming white space keeps the words. -/
theorem words_trimSpace (s : String) : words (trimSpace s) = words s := by
  -- `s` is leading white space, the trimmed text, then trailing white space
  set rest := s.toList.dropWhile isSpace
  have trail : (rest.reverse.dropWhile isSpace).reverse ++ (rest.reverse.takeWhile isSpace).reverse =
      rest := by
    rw [← List.reverse_append, List.takeWhile_append_dropWhile, List.reverse_reverse]
  have leadSpaces : ∀ c ∈ s.toList.takeWhile isSpace, isSpace c = true :=
    fun c member => List.mem_takeWhile_imp member
  have trailSpaces : ∀ c ∈ (rest.reverse.takeWhile isSpace).reverse, isSpace c = true :=
    fun c member => List.mem_takeWhile_imp (List.mem_reverse.1 member)
  calc words (trimSpace s)
      = words (String.ofList ((rest.reverse.dropWhile isSpace).reverse ++
          (rest.reverse.takeWhile isSpace).reverse)) := by
        rw [words_append_spaces _ trailSpaces]
        rfl
    _ = words (String.ofList rest) := by rw [trail]
    _ = words (String.ofList (s.toList.takeWhile isSpace ++ rest)) := by
        rw [words_spaces_append leadSpaces]
    _ = words s := by rw [List.takeWhile_append_dropWhile, String.ofList_toList]

/-- The trimmed text is empty exactly when the text has no words. -/
theorem trimSpace_isEmpty_iff (s : String) : (trimSpace s).isEmpty ↔ words s = [] := by
  constructor
  · intro empty
    rw [← words_trimSpace, String.isEmpty_iff.1 empty]
    rfl
  · intro none
    have blank := words_eq_nil_iff.1 (by rwa [String.ofList_toList])
    have gone : s.toList.dropWhile isSpace = [] := List.dropWhile_eq_nil_iff.2 blank
    simp [trimSpace, gone]

/-- White space at the end of a text, such as a carriage return, is trimmed. -/
theorem trimSpace_append_space (cs : List Char) {c : Char} (space : isSpace c = true) :
    trimSpace (String.ofList (cs ++ [c])) = trimSpace (String.ofList cs) := by
  simp only [trimSpace, String.toList_ofList, List.dropWhile_append]
  split
  · next blank =>
    simp only [List.isEmpty_iff] at blank
    simp [blank, List.dropWhile, space]
  · simp [space]

/-- A text of lines each ended by a line feed has those lines, less a carriage
return each ends in. -/
theorem lines_of_terminated {raws : List (List Char)} (noBreak : ∀ r ∈ raws, '\n' ∉ r) :
    lines (String.ofList (raws.flatMap (· ++ ['\n']))) = raws.map (String.ofList ∘ dropReturn) := by
  have pieces : (raws.flatMap (· ++ ['\n'])).splitOn '\n' = raws ++ [[]] := by
    induction raws with
    | nil => rfl
    | cons r raws ih =>
      rw [List.flatMap_cons, List.append_assoc, List.singleton_append,
        List.splitOn_append_cons_self_of_not_mem (noBreak r List.mem_cons_self),
        ih fun r' member => noBreak r' (List.mem_cons_of_mem _ member), List.cons_append]
  simp [lines, pieces, Function.comp_def]

/-- Cutting a line before a character and trimming it gives the same text
whether or not the carriage return it ends in is dropped first. -/
theorem trimSpace_takeWhile_dropReturn (cs : List Char) (stop : Char → Bool) :
    trimSpace (String.ofList ((dropReturn cs).takeWhile stop)) =
      trimSpace (String.ofList (cs.takeWhile stop)) := by
  unfold dropReturn
  split
  · next ending =>
    obtain ⟨init, rfl⟩ := List.getLast?_eq_some_iff.1 ending
    rw [List.dropLast_concat, List.takeWhile_append]
    split
    · next whole =>
      -- the cut does not stop before the carriage return, which is then trimmed
      have same : init.takeWhile stop = init := (List.takeWhile_prefix stop).eq_of_length whole
      rw [same]
      cases keeps : stop '\r'
      · simp [keeps]
      · simp only [List.takeWhile_cons_of_pos keeps, List.takeWhile_nil]
        exact (trimSpace_append_space init (by decide)).symm
    · rfl
  · rfl

end Text

namespace ResolutionMap

/-- The words of a line before its comment, which are all a line is read by. -/
def lineWords (raw : String) : List String :=
  Text.words (String.ofList (raw.toList.takeWhile (· != '#')))

/-- Whether a line's words are a unit header. -/
def isHeader : List String → Bool
  | ["unit", _] => true
  | _ => false

/-- Whether a line's words fit the grammar, after a unit header or not: no
words (a blank or comment line), a unit header, or a symbol and a resolution
name after a header. -/
def lineFits (headed : Bool) : List String → Bool
  | [] => true
  | ["unit", _] => true
  | [_, resolution] => headed && (Resolution.ofPluginName? resolution).isSome
  | _ => false

theorem content_isEmpty (raw : String) :
    (Text.trimSpace (String.ofList (raw.toList.takeWhile (· != '#')))).isEmpty =
      (lineWords raw).isEmpty := by
  rw [Bool.eq_iff_iff, Text.trimSpace_isEmpty_iff, List.isEmpty_iff]
  rfl

theorem words_content (raw : String) :
    Text.words (Text.trimSpace (String.ofList (raw.toList.takeWhile (· != '#')))) = lineWords raw :=
  Text.words_trimSpace _

section Line

variable {m : ResolutionMap} {unit : Option String} {line : Nat} {raw : String}

theorem parseLine_of_blank (blank : lineWords raw = []) : m.parseLine unit line raw = .ok (m, unit) := by
  have empty := content_isEmpty raw
  rw [blank] at empty
  simp [parseLine, empty]

theorem parseLine_of_header {name : String} (header : lineWords raw = ["unit", name]) :
    m.parseLine unit line raw = .ok (m, some name) := by
  have filled := content_isEmpty raw
  rw [header] at filled
  simp [parseLine, filled, words_content, header]

theorem parseLine_of_entry {symbol resolution u : String} {r : Resolution}
    (entry : lineWords raw = [symbol, resolution]) (notUnit : symbol ≠ "unit")
    (known : Resolution.ofPluginName? resolution = some r) :
    m.parseLine (some u) line raw = .ok (m.insert u symbol r, some u) := by
  have filled := content_isEmpty raw
  rw [entry] at filled
  simp [parseLine, filled, words_content, entry, known]

/-- A line that does not fit the grammar is refused at its number. -/
theorem parseLine_misfit (misfit : lineFits unit.isSome (lineWords raw) = false) :
    ∃ msg, m.parseLine unit line raw = .error (.badResolution line msg) := by
  have filled := content_isEmpty raw
  rcases shape : lineWords raw with _ | ⟨first, _ | ⟨second, _ | ⟨third, rest⟩⟩⟩
  · simp [shape, lineFits] at misfit
  all_goals rw [shape] at filled misfit
  · -- one word: a header without its name, or no entry
    by_cases isUnit : first = "unit"
    · subst isUnit
      simp [parseLine, filled, words_content, shape]
    · simp [parseLine, filled, words_content, shape, isUnit]
  · -- two words and no header: an entry before any header, or with an unknown resolution
    by_cases isUnit : first = "unit"
    · subst isUnit
      simp [lineFits] at misfit
    · cases unit with
      | none => simp [parseLine, filled, words_content, shape]
      | some u =>
        cases resolved : Resolution.ofPluginName? second with
        | none => simp [parseLine, filled, words_content, shape, resolved]
        | some r => simp [lineFits, resolved] at misfit
  · -- three words or more: a header with more than a name, or no entry
    by_cases isUnit : first = "unit"
    · subst isUnit
      simp [parseLine, filled, words_content, shape]
    · simp [parseLine, filled, words_content, shape, isUnit]

/-- A line that fits the grammar is read; a unit is known after it once a
header came before it or it is one. -/
theorem parseLine_fits (fits : lineFits unit.isSome (lineWords raw) = true) :
    ∃ st, m.parseLine unit line raw = .ok st ∧
      st.2.isSome = (unit.isSome || isHeader (lineWords raw)) := by
  rcases shape : lineWords raw with _ | ⟨first, _ | ⟨second, _ | ⟨third, rest⟩⟩⟩
  · exact ⟨_, parseLine_of_blank shape, by simp [isHeader]⟩
  · simp [shape, lineFits] at fits
  · by_cases isUnit : first = "unit"
    · subst isUnit
      exact ⟨_, parseLine_of_header shape, by simp [isHeader]⟩
    · rw [shape] at fits
      cases unit with
      | none => simp [lineFits] at fits
      | some u =>
        obtain ⟨r, resolved⟩ := Option.isSome_iff_exists.1 (by simpa [lineFits] using fits)
        exact ⟨_, parseLine_of_entry shape isUnit resolved, by simp⟩
  · simp [shape, lineFits] at fits

/-- A line is read as the same line without the carriage return it ends in. -/
theorem parseLine_dropReturn :
    m.parseLine unit line (String.ofList (Text.dropReturn raw.toList)) = m.parseLine unit line raw := by
  simp only [parseLine, String.toList_ofList, Text.trimSpace_takeWhile_dropReturn]

end Line

/-- Reading the lines on from number `line`, after the map and the unit that
the lines before left. -/
def readLines (st : ResolutionMap × Option String) (line : Nat) : List String →
    Except StreamError (ResolutionMap × Option String)
  | [] => .ok st
  | raw :: rest => (st.1.parseLine st.2 line raw).bind fun st' => readLines st' (line + 1) rest

theorem forIn_parseLine {f : String × Nat → ResolutionMap × Option String →
      Except StreamError (ForInStep (ResolutionMap × Option String))}
    (step : ∀ raw i st, f (raw, i) st = (st.1.parseLine st.2 (i + 1) raw).map .yield) :
    ∀ (lines : List String) (start : Nat) (st : ResolutionMap × Option String),
      forIn (lines.zipIdx start) st f = readLines st (start + 1) lines
  | [], _, _ => rfl
  | raw :: rest, start, st => by
    rw [List.zipIdx_cons, List.forIn_cons, step, readLines]
    cases st.1.parseLine st.2 (start + 1) raw with
    | error e => rfl
    | ok st' => exact forIn_parseLine step rest (start + 1) st'

/-- Reading a file is reading its lines from the first, with no unit yet. -/
theorem parse_eq (text : String) :
    parse text = (readLines ({}, none) 1 (Text.lines text)).map (·.1) := by
  unfold parse
  dsimp only
  rw [forIn_parseLine]
  · cases readLines ({}, none) (0 + 1) (Text.lines text) <;> rfl
  · intro raw i st
    cases st.1.parseLine st.2 (i + 1) raw <;> rfl

theorem readLines_append (st : ResolutionMap × Option String) (line : Nat) (xs ys : List String) :
    readLines st line (xs ++ ys) =
      (readLines st line xs).bind fun st' => readLines st' (line + xs.length) ys := by
  induction xs generalizing st line with
  | nil => rfl
  | cons raw xs ih =>
    simp only [List.cons_append, readLines, List.length_cons]
    cases st.1.parseLine st.2 line raw with
    | error e => rfl
    | ok st' =>
      simp only [Except.bind, ih]
      rw [Nat.add_assoc, Nat.add_comm 1]

theorem readLines_dropReturn (st : ResolutionMap × Option String) (line : Nat) (raws : List String) :
    readLines st line (raws.map fun raw => String.ofList (Text.dropReturn raw.toList)) =
      readLines st line raws := by
  induction raws generalizing st line with
  | nil => rfl
  | cons raw raws ih => simp only [List.map_cons, readLines, parseLine_dropReturn, ih]

/-- The first line that does not fit, after lines that do, refuses the file
at its number. The unit is known before a line once a header came before it. -/
theorem readLines_rejects {raw : String} {post : List String} :
    ∀ (pre : List String) (st : ResolutionMap × Option String) (line : Nat),
      (∀ k (inside : k < pre.length),
        lineFits (st.2.isSome || (pre.take k).any (isHeader ∘ lineWords)) (lineWords pre[k]) = true) →
      lineFits (st.2.isSome || pre.any (isHeader ∘ lineWords)) (lineWords raw) = false →
      ∃ msg, readLines st line (pre ++ raw :: post) = .error (.badResolution (line + pre.length) msg) := by
  intro pre
  induction pre with
  | nil =>
    intro st line _ misfit
    obtain ⟨msg, refused⟩ : ∃ msg, st.1.parseLine st.2 line raw = .error (.badResolution line msg) :=
      parseLine_misfit (by simpa using misfit)
    exact ⟨msg, by simp [readLines, refused, Except.bind]⟩
  | cons first pre ih =>
    intro st line fits misfit
    have firstFits := fits 0 (by simp)
    simp only [List.getElem_cons_zero, List.take_zero, List.any_nil, Bool.or_false] at firstFits
    obtain ⟨st', read, headed⟩ : ∃ st', st.1.parseLine st.2 line first = .ok st' ∧
        st'.2.isSome = (st.2.isSome || isHeader (lineWords first)) := parseLine_fits firstFits
    -- after the first line, the unit is known once it was or the line is a header
    have fitsAfter : ∀ k (inside : k < pre.length),
        lineFits (st'.2.isSome || (pre.take k).any (isHeader ∘ lineWords)) (lineWords pre[k]) = true := by
      intro k inside
      have next := fits (k + 1) (by simpa using inside)
      simp only [List.getElem_cons_succ] at next
      simpa [headed, Bool.or_assoc] using next
    have misfitAfter : lineFits (st'.2.isSome || pre.any (isHeader ∘ lineWords)) (lineWords raw) = false := by
      simpa [headed, Bool.or_assoc] using misfit
    obtain ⟨msg, refused⟩ := ih st' (line + 1) fitsAfter misfitAfter
    refine ⟨msg, ?_⟩
    rw [List.cons_append, readLines, read]
    simpa [Except.bind, Nat.add_assoc, Nat.add_comm 1] using refused

/-- A file is refused at the number of its first line that does not fit the
grammar: a line with words before its comment that are neither `unit` and a
name, nor a symbol and a resolution name after some unit header. -/
theorem parse_rejects_first_misfit {text raw : String} {pre post : List String}
    (split : Text.lines text = pre ++ raw :: post)
    (fits : ∀ k (inside : k < pre.length),
      lineFits ((pre.take k).any (isHeader ∘ lineWords)) (lineWords pre[k]) = true)
    (misfit : lineFits (pre.any (isHeader ∘ lineWords)) (lineWords raw) = false) :
    ∃ msg, parse text = .error (.badResolution (pre.length + 1) msg) := by
  obtain ⟨msg, refused⟩ : ∃ msg, readLines ({}, none) 1 (pre ++ raw :: post) =
      .error (.badResolution (1 + pre.length) msg) :=
    readLines_rejects pre ({}, none) 1 (by simpa using fits) (by simpa using misfit)
  refine ⟨msg, ?_⟩
  rw [parse_eq, split, refused, Nat.add_comm]
  rfl

end ResolutionMap

/-- What ends a line of a resolution file: white space, then perhaps a `#`
and a comment. -/
structure ResolutionFile.Remark where
  space : String := ""
  comment : Option String := none
  deriving DecidableEq, Repr

/-- A line under a unit header: an entry, or a line that says nothing. -/
inductive ResolutionFile.Line where
  | entry (symbol : String) (resolution : Resolution) (remark : ResolutionFile.Remark)
  | filler (remark : ResolutionFile.Remark)
  deriving DecidableEq, Repr

/-- A unit header and the lines under it. -/
structure ResolutionFile.Block where
  unit : String
  remark : ResolutionFile.Remark := {}
  lines : List ResolutionFile.Line
  deriving DecidableEq, Repr

/-- A resolution file laid out: lines that say nothing, then unit headers,
each followed by its lines. -/
structure ResolutionFile where
  preamble : List ResolutionFile.Remark := []
  blocks : List ResolutionFile.Block
  deriving DecidableEq, Repr

namespace ResolutionFile

def Remark.text (r : Remark) : String := r.space ++ (r.comment.map ("#" ++ ·)).getD ""

/-- An entry is written as its symbol and its resolution's plugin name. -/
def Line.text : Line → String
  | entry symbol resolution remark => symbol ++ " " ++ resolution.pluginName ++ remark.text
  | filler remark => remark.text

/-- The symbol an entry resolves, under its unit. -/
def Line.entry? (unit : String) : Line → Option ((String × String) × Resolution)
  | entry symbol resolution _ => some ((unit, symbol), resolution)
  | filler _ => none

def Block.texts (b : Block) : List String :=
  ("unit " ++ b.unit ++ b.remark.text) :: b.lines.map Line.text

def Block.entries (b : Block) : List ((String × String) × Resolution) :=
  b.lines.filterMap (Line.entry? b.unit)

/-- The file's lines, without their line feeds. -/
def texts (f : ResolutionFile) : List String :=
  f.preamble.map Remark.text ++ f.blocks.flatMap Block.texts

/-- The file's text, every line ended by a line feed. -/
def render (f : ResolutionFile) : String :=
  String.join (f.texts.map (· ++ "\n"))

/-- The entries the file resolves, under their units, in file order. -/
def entries (f : ResolutionFile) : List ((String × String) × Resolution) :=
  f.blocks.flatMap Block.entries

/-- A unit or symbol name: not empty, with neither white space nor `#` in it. -/
def Name (n : String) : Prop := n.toList ≠ [] ∧ ∀ c ∈ n.toList, Text.isSpace c = false ∧ c ≠ '#'

instance : DecidablePred Name := fun _ => inferInstanceAs (Decidable (_ ∧ _))

/-- A remark stays on its line: its space is white space and no line feed,
and its comment holds no line feed. -/
def Remark.Valid (r : Remark) : Prop :=
  (∀ c ∈ r.space.toList, Text.isSpace c = true ∧ c ≠ '\n') ∧ ∀ t ∈ r.comment, '\n' ∉ t.toList

instance : DecidablePred Remark.Valid := fun _ => inferInstanceAs (Decidable (_ ∧ _))

/-- An entry's symbol is a name other than the word `unit`. -/
def Line.Valid : Line → Prop
  | entry symbol _ remark => Name symbol ∧ symbol ≠ "unit" ∧ remark.Valid
  | filler remark => remark.Valid

instance : DecidablePred Line.Valid := fun l =>
  match l with
  | .entry symbol _ remark => inferInstanceAs (Decidable (Name symbol ∧ symbol ≠ "unit" ∧ remark.Valid))
  | .filler remark => inferInstanceAs (Decidable remark.Valid)

def Valid (f : ResolutionFile) : Prop :=
  (∀ r ∈ f.preamble, r.Valid) ∧ ∀ b ∈ f.blocks, Name b.unit ∧ b.remark.Valid ∧ ∀ l ∈ b.lines, l.Valid

instance : DecidablePred Valid := fun _ => inferInstanceAs (Decidable (_ ∧ _))

/-- What stands before a remark's comment is its white space. -/
theorem takeWhile_remark {r : Remark} (valid : r.Valid) :
    r.text.toList.takeWhile (· != '#') = r.space.toList := by
  have spaces : ∀ c ∈ r.space.toList, (c != '#') = true := by
    intro c member
    have space := (valid.1 c member).1
    simp only [bne_iff_ne, ne_eq]
    rintro rfl
    exact absurd space (by decide)
  cases comment : r.comment with
  | none => simp [Remark.text, comment, List.takeWhile_eq_self_iff.2 spaces]
  | some c => simp [Remark.text, comment, List.takeWhile_append_of_pos spaces]

/-- A line that is only a remark has no words. -/
theorem lineWords_remark {r : Remark} (valid : r.Valid) : ResolutionMap.lineWords r.text = [] := by
  rw [ResolutionMap.lineWords, takeWhile_remark valid]
  exact Text.words_of_spaces fun c member => (valid.1 c member).1

theorem pluginName_letters (r : Resolution) :
    ∀ c ∈ r.pluginName.toList, Text.isSpace c = false ∧ c ≠ '#' := by
  cases r <;> simp [Resolution.pluginName, Text.isSpace]

theorem ofPluginName?_pluginName (r : Resolution) : Resolution.ofPluginName? r.pluginName = some r := by
  cases r <;> simp [Resolution.ofPluginName?, Resolution.pluginName]

/-- The characters of a name, and of a plugin name, are cut at no `#`. -/
theorem keeps_letters {cs : List Char} (letters : ∀ c ∈ cs, Text.isSpace c = false ∧ c ≠ '#') :
    ∀ c ∈ cs, (c != '#') = true := fun c member => by simpa using (letters c member).2

/-- The words of a word, a space and a word, then a remark. -/
theorem lineWords_pair {first second : List Char} {r : Remark}
    (firstLetters : first ≠ [] ∧ ∀ c ∈ first, Text.isSpace c = false ∧ c ≠ '#')
    (secondLetters : second ≠ [] ∧ ∀ c ∈ second, Text.isSpace c = false ∧ c ≠ '#')
    (valid : r.Valid) :
    ResolutionMap.lineWords (String.ofList ((first ++ ' ' :: second) ++ r.text.toList)) =
      [String.ofList first, String.ofList second] := by
  have letters : ∀ c ∈ first ++ ' ' :: second, (c != '#') = true := by
    simp only [List.mem_append, List.mem_cons]
    rintro c (inFirst | rfl | inSecond)
    · exact keeps_letters firstLetters.2 c inFirst
    · decide
    · exact keeps_letters secondLetters.2 c inSecond
  rw [ResolutionMap.lineWords, String.toList_ofList, List.takeWhile_append_of_pos letters,
    takeWhile_remark valid, Text.words_append_spaces _ fun c member => (valid.1 c member).1,
    Text.words_append_space (by decide),
    Text.words_of_word firstLetters.1 fun c member => (firstLetters.2 c member).1,
    Text.words_of_word secondLetters.1 fun c member => (secondLetters.2 c member).1]
  rfl

/-- A header line's words are `unit` and the unit's name. -/
theorem lineWords_header {unit : String} {r : Remark} (name : Name unit) (valid : r.Valid) :
    ResolutionMap.lineWords ("unit " ++ unit ++ r.text) = ["unit", unit] := by
  have chars : "unit " ++ unit ++ r.text =
      String.ofList ((['u', 'n', 'i', 't'] ++ ' ' :: unit.toList) ++ r.text.toList) := by
    rw [← String.toList_inj, String.toList_ofList]
    simp [show "unit ".toList = ['u', 'n', 'i', 't', ' '] from rfl]
  rw [chars, lineWords_pair (by simp [Text.isSpace]) name valid, String.ofList_toList]

/-- An entry line's words are its symbol and its resolution's plugin name. -/
theorem lineWords_entry {symbol : String} {resolution : Resolution} {r : Remark}
    (name : Name symbol) (valid : r.Valid) :
    ResolutionMap.lineWords (symbol ++ " " ++ resolution.pluginName ++ r.text) =
      [symbol, resolution.pluginName] := by
  have chars : symbol ++ " " ++ resolution.pluginName ++ r.text =
      String.ofList ((symbol.toList ++ ' ' :: resolution.pluginName.toList) ++ r.text.toList) := by
    rw [← String.toList_inj, String.toList_ofList]
    simp [show " ".toList = [' '] from rfl]
  have plugin : resolution.pluginName.toList ≠ [] := by cases resolution <;> simp [Resolution.pluginName]
  rw [chars, lineWords_pair name ⟨plugin, pluginName_letters resolution⟩ valid,
    String.ofList_toList, String.ofList_toList]

/-! ### The lines of a rendered file -/

theorem not_break_of_letters {cs : List Char} (letters : ∀ c ∈ cs, Text.isSpace c = false ∧ c ≠ '#') :
    '\n' ∉ cs := fun member => absurd (letters _ member).1 (by decide)

theorem Remark.not_break {r : Remark} (valid : r.Valid) : '\n' ∉ r.text.toList := by
  have spaces : '\n' ∉ r.space.toList := fun member => (valid.1 _ member).2 rfl
  cases comment : r.comment with
  | none => simpa [Remark.text, comment] using spaces
  | some t =>
    have inComment := valid.2 t comment
    simp [Remark.text, comment, spaces, inComment, show "#".toList = ['#'] from rfl]

theorem Line.not_break {l : Line} (valid : l.Valid) : '\n' ∉ l.text.toList := by
  cases l with
  | entry symbol resolution remark =>
    have inSymbol := not_break_of_letters valid.1.2
    have inPlugin := not_break_of_letters (pluginName_letters resolution)
    simp [Line.text, inSymbol, inPlugin, Remark.not_break valid.2.2, show " ".toList = [' '] from rfl]
  | filler remark => exact Remark.not_break valid

theorem Block.not_break {b : Block} (name : Name b.unit) (remark : b.remark.Valid)
    (valid : ∀ l ∈ b.lines, l.Valid) : ∀ t ∈ b.texts, '\n' ∉ t.toList := by
  simp only [Block.texts, List.mem_cons, List.mem_map]
  rintro t (rfl | ⟨l, member, rfl⟩)
  · simp [not_break_of_letters name.2, Remark.not_break remark,
      show "unit ".toList = ['u', 'n', 'i', 't', ' '] from rfl]
  · exact Line.not_break (valid l member)

theorem not_break {f : ResolutionFile} (valid : f.Valid) : ∀ t ∈ f.texts, '\n' ∉ t.toList := by
  simp only [texts, List.mem_append, List.mem_map, List.mem_flatMap]
  rintro t (⟨r, member, rfl⟩ | ⟨b, member, inBlock⟩)
  · exact Remark.not_break (valid.1 r member)
  · obtain ⟨name, remark, lines⟩ := valid.2 b member
    exact Block.not_break name remark lines t inBlock

/-- A rendered file's lines are its texts, as `Text.lines` reads them. -/
theorem lines_render {f : ResolutionFile} (valid : f.Valid) :
    Text.lines f.render = f.texts.map fun t => String.ofList (Text.dropReturn t.toList) := by
  have chars : f.render = String.ofList ((f.texts.map String.toList).flatMap (· ++ ['\n'])) := by
    rw [← String.toList_inj, String.toList_ofList, render, String.toList_join]
    simp [List.flatMap_map, show "\n".toList = ['\n'] from rfl]
  have noBreak : ∀ r ∈ f.texts.map String.toList, '\n' ∉ r := by
    simp only [List.mem_map]
    rintro r ⟨t, member, rfl⟩
    exact not_break valid t member
  rw [chars, Text.lines_of_terminated noBreak, List.map_map]
  rfl

/-! ### Reading a rendered file -/

open ResolutionMap (readLines)

/-- Lines that say nothing leave the map and the unit as they were. -/
theorem readLines_remarks {rs : List Remark} (valid : ∀ r ∈ rs, r.Valid) :
    ∀ (st : ResolutionMap × Option String) (line : Nat), readLines st line (rs.map Remark.text) = .ok st := by
  induction rs with
  | nil => intro st line; rfl
  | cons r rs ih =>
    intro st line
    rw [List.map_cons, readLines,
      ResolutionMap.parseLine_of_blank (lineWords_remark (valid r List.mem_cons_self))]
    exact ih (fun r' member => valid r' (List.mem_cons_of_mem _ member)) st (line + 1)

/-- The lines under a unit header add their entries to the map, the latest
first. -/
theorem readLines_lines {ls : List Line} (valid : ∀ l ∈ ls, l.Valid) (u : String) :
    ∀ (m : ResolutionMap) (line : Nat), readLines (m, some u) line (ls.map Line.text) =
      .ok ({ entries := (ls.filterMap (Line.entry? u)).reverse ++ m.entries }, some u) := by
  induction ls with
  | nil => intro m line; rfl
  | cons l ls ih =>
    intro m line
    have rest := ih fun l' member => valid l' (List.mem_cons_of_mem _ member)
    cases l with
    | entry symbol resolution remark =>
      obtain ⟨name, notUnit, remarkValid⟩ := valid _ List.mem_cons_self
      rw [List.map_cons, readLines, Line.text,
        ResolutionMap.parseLine_of_entry (lineWords_entry name remarkValid) notUnit
          (ofPluginName?_pluginName resolution)]
      simp [Except.bind, rest, ResolutionMap.insert, Line.entry?]
    | filler remark =>
      rw [List.map_cons, readLines, Line.text,
        ResolutionMap.parseLine_of_blank (lineWords_remark (valid _ List.mem_cons_self))]
      simp only [List.filterMap_cons, Line.entry?]
      exact rest m (line + 1)

/-- A block sets its unit and adds its entries to the map. -/
theorem readLines_block {b : Block} (name : Name b.unit) (remark : b.remark.Valid)
    (valid : ∀ l ∈ b.lines, l.Valid) (st : ResolutionMap × Option String) (line : Nat) :
    readLines st line b.texts = .ok ({ entries := b.entries.reverse ++ st.1.entries }, some b.unit) := by
  rw [Block.texts, readLines, ResolutionMap.parseLine_of_header (lineWords_header name remark)]
  exact readLines_lines valid b.unit st.1 (line + 1)

theorem readLines_blocks {bs : List Block}
    (valid : ∀ b ∈ bs, Name b.unit ∧ b.remark.Valid ∧ ∀ l ∈ b.lines, l.Valid) :
    ∀ (st : ResolutionMap × Option String) (line : Nat), ∃ u, readLines st line (bs.flatMap Block.texts) =
      .ok ({ entries := (bs.flatMap Block.entries).reverse ++ st.1.entries }, u) := by
  induction bs with
  | nil => intro st line; exact ⟨st.2, rfl⟩
  | cons b bs ih =>
    intro st line
    obtain ⟨name, remark, lines⟩ := valid b List.mem_cons_self
    obtain ⟨u, rest⟩ := ih (fun b' member => valid b' (List.mem_cons_of_mem _ member))
      ({ entries := b.entries.reverse ++ st.1.entries }, some b.unit) (line + b.texts.length)
    refine ⟨u, ?_⟩
    rw [List.flatMap_cons, ResolutionMap.readLines_append, readLines_block name remark lines]
    simpa [Except.bind] using rest

end ResolutionFile

namespace ResolutionMap

/-- A laid out resolution file reads back as its entries, the latest first. -/
theorem parse_render {f : ResolutionFile} (valid : f.Valid) :
    parse f.render = .ok { entries := f.entries.reverse } := by
  obtain ⟨u, blocks⟩ := ResolutionFile.readLines_blocks valid.2 ({}, none) (1 + f.preamble.length)
  rw [parse_eq, ResolutionFile.lines_render valid, readLines_dropReturn, ResolutionFile.texts,
    readLines_append, ResolutionFile.readLines_remarks valid.1, List.length_map]
  simp [Except.bind, blocks, ResolutionFile.entries, Except.map]

section Lookup

variable {α β : Type} [BEq α] [LawfulBEq α]

/-- With distinct keys, looking a key up finds exactly the pairs of the list. -/
theorem lookup_eq_some_iff_mem {l : List (α × β)} (distinct : (l.map (·.1)).Nodup) {k : α} {b : β} :
    l.lookup k = some b ↔ (k, b) ∈ l := by
  induction l with
  | nil => simp
  | cons p l ih =>
    obtain ⟨k', b'⟩ := p
    rw [List.map_cons, List.nodup_cons] at distinct
    by_cases same : k = k'
    · subst same
      have absent : (k, b) ∉ l := fun member => distinct.1 (List.mem_map.2 ⟨_, member, rfl⟩)
      simp [absent, eq_comm]
    · have differ : (k == k') = false := beq_false_of_ne same
      simp [List.lookup_cons, differ, same, ih distinct.2]

/-- With distinct keys, the order of the pairs does not change a lookup. -/
theorem lookup_perm {l₁ l₂ : List (α × β)} (perm : l₁.Perm l₂) (distinct : (l₁.map (·.1)).Nodup)
    (k : α) : l₁.lookup k = l₂.lookup k := by
  have distinct₂ := (perm.map (·.1)).nodup_iff.1 distinct
  apply Option.ext
  intro b
  rw [lookup_eq_some_iff_mem distinct, lookup_eq_some_iff_mem distinct₂, perm.mem_iff]

end Lookup

/-- A resolution map, laid out as a file in any order, with blank lines and
comments anywhere, reads back as the same map; and a file is refused at its
first line that does not fit the grammar. -/
theorem parse_resolution_grammar :
    (∀ (M : List ((String × String) × Resolution)) (f : ResolutionFile),
        (M.map (·.1)).Nodup → f.Valid → f.entries.Perm M →
          ∃ m, parse f.render = .ok m ∧ ∀ u s, m.get? u s = M.lookup (u, s)) ∧
      ∀ (text raw : String) (pre post : List String), Text.lines text = pre ++ raw :: post →
        (∀ k (inside : k < pre.length),
          lineFits ((pre.take k).any (isHeader ∘ lineWords)) (lineWords pre[k]) = true) →
        lineFits (pre.any (isHeader ∘ lineWords)) (lineWords raw) = false →
        ∃ msg, parse text = .error (.badResolution (pre.length + 1) msg) := by
  constructor
  · intro M f distinct valid perm
    -- the file reads back as its entries, the latest first, which are `M` reordered
    have reordered : f.entries.reverse.Perm M := (List.reverse_perm _).trans perm
    refine ⟨_, parse_render valid, fun u s => ?_⟩
    exact lookup_perm reordered ((reordered.map _).nodup_iff.2 distinct) (u, s)
  · intro text raw pre post split fits misfit
    exact parse_rejects_first_misfit split fits misfit

/-- Two units' entries, with comments, a tab, a carriage return and blank
lines between them. -/
def sampleFile : ResolutionFile :=
  { preamble := [{ comment := some " resolutions of the link" }, {}]
    blocks :=
      [{ unit := "a.o"
         lines := [.entry "main" .prevailingDef {}, .filler { space := "\t", comment := some " helpers" },
           .entry "helper" .preempted { space := " ", comment := some " inlined" }] },
       { unit := "b.o", remark := { space := " ", comment := some "" }
         lines := [.entry "main" .resolvedElsewhere { space := "\r" }] }] }

def sampleMap : List ((String × String) × Resolution) :=
  [(("b.o", "main"), .resolvedElsewhere), (("a.o", "helper"), .preempted), (("a.o", "main"), .prevailingDef)]

theorem sampleFile_reads_back :
    (sampleMap.map (·.1)).Nodup ∧ sampleFile.Valid ∧ sampleFile.entries.Perm sampleMap ∧
      (∃ m, parse sampleFile.render = .ok m ∧ ∀ u s, m.get? u s = sampleMap.lookup (u, s)) ∧
      ∃ msg, parse "unit a.o\n\nf WINS\n" = .error (.badResolution 3 msg) := by
  have distinct : (sampleMap.map (·.1)).Nodup := by decide
  have valid : sampleFile.Valid := by
    simp [sampleFile, ResolutionFile.Valid, ResolutionFile.Name, ResolutionFile.Remark.Valid,
      ResolutionFile.Line.Valid, Text.isSpace]
  have perm : sampleFile.entries.Perm sampleMap := by decide
  exact ⟨distinct, valid, perm, parse_resolution_grammar.1 _ _ distinct valid perm,
    parse_resolution_grammar.2 "unit a.o\n\nf WINS\n" "f WINS" ["unit a.o", ""] [] (by decide)
      (by decide) (by decide)⟩

end ResolutionMap

end IrStream
