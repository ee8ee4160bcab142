import IrStream.Link.Pipeline

/-!
The command line: `inspect OBJECT` describes one archive, and
`link OBJECT... [--resolution FILE] [-o FILE]` links archives, reports the
merged symbols and call graph, and may write the merged unit. The flags
`--no-locations` and `--no-verify` may stand anywhere.
-/

namespace IrStream

/-- What the command line asks for. -/
inductive Command where
  | inspect (object : String)
  | link (objects : List String) (resolution output : Option String)
  deriving DecidableEq, Repr

/-- A parsed command line: the command and the options it runs with. -/
structure Invocation where
  command : Command
  options : LinkOptions := {}
  deriving Repr

/-- The arguments of a command, sorted out of the flags. -/
structure Arguments where
  positional : List String := []
  resolution : Option String := none
  output : Option String := none
  options : LinkOptions := {}

namespace Arguments

/-- Sort the arguments: global flags, the two flags with a value (written
apart or after `=`), and the positional arguments in order. -/
def collect : List String → Arguments → Except String Arguments
  | [], acc => .ok { acc with positional := acc.positional.reverse }
  | "--no-locations" :: rest, acc =>
    collect rest { acc with options := { acc.options with emitLocations := false } }
  | "--no-verify" :: rest, acc =>
    collect rest { acc with options := { acc.options with verify := false } }
  | "--resolution" :: v :: rest, acc => collect rest { acc with resolution := some v }
  | "-o" :: v :: rest, acc => collect rest { acc with output := some v }
  | "--output" :: v :: rest, acc => collect rest { acc with output := some v }
  | a :: rest, acc =>
    if a.startsWith "--resolution=" then
      collect rest { acc with resolution := some (a.drop "--resolution=".length).toString }
    else if a.startsWith "--output=" then
      collect rest { acc with output := some (a.drop "--output=".length).toString }
    else if a.startsWith "-" && a != "-" then .error s!"unexpected argument '{a}' found"
    else collect rest { acc with positional := a :: acc.positional }

end Arguments

/-- Parse the arguments after the program name. -/
def Invocation.parse (args : List String) : Except String Invocation := do
  match args with
  | "inspect" :: rest =>
    let a ← Arguments.collect rest {}
    if a.resolution.isSome || a.output.isSome then .error "inspect takes no --resolution or --output"
    match a.positional with
    | [object] => return { command := .inspect object, options := a.options }
    | [] => .error "the following required arguments were not provided: <OBJECT>"
    | _ => .error "inspect takes one object"
  | "link" :: rest =>
    let a ← Arguments.collect rest {}
    if a.positional.isEmpty then .error "the following required arguments were not provided: <OBJECTS>..."
    return { command := .link a.positional a.resolution a.output, options := a.options }
  | cmd :: _ => .error s!"unrecognized subcommand '{cmd}'"
  | [] => .error "a subcommand is required: inspect or link"

/-- The last component of a path, which names the unit read from it. -/
def fileName (path : String) : String :=
  match (path.splitOn "/").reverse.find? (· != "") with
  | some last => last
  | none => path

end IrStream
