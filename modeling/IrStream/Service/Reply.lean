import IrStream.Doc
import IrStream.Error
import IrStream.Text.Hex
import IrStream.Text.Scrub

/-!
Building answers. A failure is an object naming the kind of error and its
text, with node and call-graph numbers hidden, since those depend on
allocation order; a malformed request answers with the bad-input kind.
-/

namespace IrStream.Service

def errorObject (kind message : String) : Doc :=
  .obj [("error", .str kind), ("message", .str (Text.scrub message))]

def streamError (e : StreamError) : Doc := errorObject e.kind e.message

def pipelineError (e : PipelineError) : Doc := errorObject e.kind e.message

def badInput (message : String) : Doc := errorObject "BadInput" message

def hexDoc (bytes : ByteArray) : Doc := .str (Hex.encode bytes)

/-- Why a request gets no answer of its own: it is malformed, with a
message saying how, or it would stop the program itself. -/
inductive Refusal where
  | badInput (message : String)
  | panic
  deriving DecidableEq, Repr

/-- Refuse a request as malformed, with a message saying how. -/
def refuse [MonadExceptOf Refusal m] (message : String) : m α :=
  throwThe Refusal (.badInput message)

/-- The answer for a refused request. -/
def Refusal.answer : Refusal → Doc
  | .badInput message => errorObject "BadInput" message
  | .panic => .obj [("error", .str "panic")]

/-- The value of a step, or the error in its place. -/
def outcome (r : Except StreamError α) (f : α → Doc) : Doc :=
  match r with
  | .ok a => f a
  | .error e => streamError e

/-- A request's answer, or the answer for its refusal. -/
def settle (r : Except Refusal Doc) : Doc :=
  match r with
  | .ok d => d
  | .error refusal => refusal.answer

end IrStream.Service
