/-!
Source positions of nodes and statements.
-/

namespace IrStream

/-- A file, line and column. -/
structure Locus where
  file : String
  line : UInt32
  column : UInt32
  deriving DecidableEq, Repr, Inhabited, Hashable

end IrStream
