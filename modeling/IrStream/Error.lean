import IrStream.Text.Quote

/-!
Errors of the streamer. Every failure aborts the pass that meets it; the
message of each cause is fixed by `StreamError.message`, and `kind` names the
cause for reports.
-/

namespace IrStream

/-- Structural faults that verifying a function body finds. -/
inductive VerifyError where
  /-- An edge points at a block index with no block. -/
  | missingEdgeTarget (src dest : UInt32)
  /-- The entry or exit block is absent. -/
  | missingFixedBlock (index : UInt32)
  /-- The block chain names a missing block, repeats one, or skips one. -/
  | badBlockOrder (index : UInt32)
  /-- A slot points at a region that neither has that number nor lists it as an alias. -/
  | ehSlotMismatch (slot region : UInt32)
  /-- A region link names a region outside the table. -/
  | ehDanglingLink (region : UInt32)
  /-- A phi names an SSA version outside the table. -/
  | ssaVersionOutOfRange (version : UInt32)
  /-- A slot names a region id past the end of the table. The original has no
  such fault: it looks the slot's region up unchecked, and the lookup stops the
  program with the message given here. -/
  | ehSlotOutOfRange (slot : UInt32) (index len : Nat)
  deriving DecidableEq, Repr

namespace VerifyError

/-- The text of a verification fault. -/
def message : VerifyError → String
  | missingEdgeTarget src dest => s!"edge {src} -> {dest} targets a missing block"
  | missingFixedBlock index => s!"fixed block {index} is missing"
  | badBlockOrder index => s!"block chain is inconsistent at block {index}"
  | ehSlotMismatch slot region => s!"EH slot {slot} points at region {region}"
  | ehDanglingLink region => s!"EH region {region} has a dangling link"
  | ssaVersionOutOfRange version => s!"SSA version {version} is out of range"
  | ehSlotOutOfRange _ index len => s!"index out of bounds: the len is {len} but the index is {index}"

end VerifyError

/-- Why reading or writing a stream failed. -/
inductive StreamError where
  /-- A read ran past the end of the named stream. -/
  | truncated (stream : String) (offset : Nat)
  /-- A varint kept its continuation bit for more than ten bytes. -/
  | overlong (stream : String) (offset : Nat)
  /-- A tag byte or code that the context does not admit. -/
  | unknownTag (tag : UInt64) (context : String)
  /-- A back-reference to a node not read yet. -/
  | badReference (index : UInt64) (known : Nat)
  | versionMismatch (major minor expectedMajor : UInt16)
  | badSectionKind (found expected : UInt16)
  | missingSection (what : String)
  | badReal (text : String)
  | badString (offset : UInt64)
  | indexOutOfRange (what : String) (index : Int64) (entries : Nat)
  /-- Input that contradicts itself or the model. -/
  | consistency (detail : String)
  | alreadyDefined (symbol : String)
  | symbolKindConflict (symbol : String)
  | badResolution (line : Nat) (detail : String)
  | verify (fault : VerifyError)
  deriving DecidableEq, Repr

namespace StreamError

/-- The text of an error. -/
def message : StreamError → String
  | truncated stream offset => s!"truncated {stream} stream at offset {offset}"
  | overlong stream offset => s!"overlong varint in {stream} stream at offset {offset}"
  | unknownTag tag context => s!"unknown tag {tag} in {context}"
  | badReference index known => s!"back-reference to index {index}, only {known} nodes known"
  | versionMismatch major minor expected =>
    s!"section version {major}.{minor} unsupported, expected {expected}.x"
  | badSectionKind found expected => s!"section kind {found}, expected {expected}"
  | missingSection what => s!"missing section {what}"
  | badReal text => "malformed real constant " ++ Text.quote text
  | badString offset => s!"bad string reference {offset}"
  | indexOutOfRange what index entries => s!"{what} index {index} out of range ({entries} entries)"
  | consistency detail => s!"inconsistent input: {detail}"
  | alreadyDefined symbol => s!"symbol {symbol} defined more than once"
  | symbolKindConflict symbol =>
    s!"symbol {symbol} is a function in one unit and a variable in another"
  | badResolution line detail => s!"resolution file line {line}: {detail}"
  | verify fault => s!"function body failed verification: {fault.message}"

/-- The error's text followed by the texts of the errors it wraps, outermost
first: a verification failure wraps the verifier's fault. -/
def chain : StreamError → List String
  | verify fault => [message (verify fault), fault.message]
  | e => [e.message]

/-- The name of the cause, one per constructor. -/
def kind : StreamError → String
  | truncated .. => "Truncated"
  | overlong .. => "Overlong"
  | unknownTag .. => "UnknownTag"
  | badReference .. => "BadReference"
  | versionMismatch .. => "VersionMismatch"
  | badSectionKind .. => "BadSectionKind"
  | missingSection .. => "MissingSection"
  | badReal .. => "BadReal"
  | badString .. => "BadString"
  | indexOutOfRange .. => "IndexOutOfRange"
  | consistency .. => "Consistency"
  | alreadyDefined .. => "AlreadyDefined"
  | symbolKindConflict .. => "SymbolKindConflict"
  | badResolution .. => "BadResolution"
  | verify .. => "Verify"

end StreamError

/-- What stopped a whole-unit pipeline: a stream error, or a stage check. -/
inductive PipelineCause where
  | stream (e : StreamError)
  | stage (detail : String)
  deriving DecidableEq, Repr

/-- A pipeline failure with the contexts it passed through, outermost first. -/
structure PipelineError where
  contexts : List String
  cause : PipelineCause
  deriving DecidableEq, Repr

namespace PipelineError

/-- The texts of the whole chain, outermost first: the contexts, then the
cause and what it wraps. -/
def chain (e : PipelineError) : List String :=
  e.contexts ++ match e.cause with
    | .stream s => s.chain
    | .stage d => [d]

/-- The chain's texts joined by a colon and a space. -/
def message (e : PipelineError) : String := ": ".intercalate e.chain

/-- The stream error's kind, or `Link` for a failed stage check. -/
def kind (e : PipelineError) : String :=
  match e.cause with
  | .stream s => s.kind
  | .stage _ => "Link"

/-- The same failure seen from one more enclosing step. -/
def within (context : String) (e : PipelineError) : PipelineError :=
  { e with contexts := context :: e.contexts }

end PipelineError

end IrStream
