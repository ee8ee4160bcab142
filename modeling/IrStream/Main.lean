import IrStream.Command.Line
import IrStream.Command.Report

/-!
The command line's outer layer: it reads the named files, runs the library's
inspect or link, prints the report and writes the merged unit if asked.
-/

open IrStream

/-- An archive read from `path`, named by the path's last component. -/
def loadArchive (path : String) : IO (Pipeline Archive) := do
  match ← (IO.FS.readBinFile path).toBaseIO with
  | .error e => return .error { contexts := [s!"failed to load {path}"], cause := .stage (toString e) }
  | .ok bytes => return Pipeline.within s!"failed to load {path}" (Archive.ofBytes (fileName path) bytes)

/-- The resolution file at `path`, or the empty one. -/
def loadResolutions (path : Option String) : IO (Pipeline ResolutionMap) := do
  let some path := path | return .ok {}
  match ← (IO.FS.readFile path).toBaseIO with
  | .error e => return .error { contexts := [s!"failed to read {path}"], cause := .stage (toString e) }
  | .ok text => return Pipeline.within s!"failed to parse {path}" (ResolutionMap.parse text)

def runLink (objects : List String) (resolution output : Option String) (options : LinkOptions) :
    IO (Pipeline (List String)) := do
  let resolutions ← loadResolutions resolution
  let .ok resolutions := resolutions | return resolutions.map fun _ => []
  let mut units := #[]
  for path in objects do
    match ← loadArchive path with
    | .ok a => units := units.push a
    | .error e => return .error e
  match link units.toList resolutions options with
  | .error e => return .error (e.within "link failed")
  | .ok (program, symtab) =>
    let lines := linkReport program symtab units.toList
    let some path := output | return .ok lines
    match program.writeUnit options none { name := path } with
    | .error e => return .error (e.within "failed to write the merged unit")
    | .ok merged =>
      match merged.toBytes with
      | .error e => return Pipeline.within s!"failed to write {path}" (.error e)
      | .ok bytes =>
        match ← (IO.FS.writeBinFile path bytes).toBaseIO with
        | .error e =>
          return .error { contexts := [s!"failed to write {path}"], cause := .stage (toString e) }
        | .ok () => return .ok (lines ++ [s!"wrote {path}"])

def main (args : List String) : IO UInt32 := do
  match Invocation.parse args with
  | .error msg =>
    IO.eprintln s!"error: {msg}"
    return 2
  | .ok inv =>
    let result ← match inv.command with
      | .inspect object => do
        match ← loadArchive object with
        | .ok a => pure a.describe
        | .error e => pure (.error e)
      | .link objects resolution output => runLink objects resolution output inv.options
    match result with
    | .ok lines =>
      let out ← IO.getStdout
      for line in lines do out.putStrLn line
      return 0
    | .error e =>
      IO.eprintln e.report
      return 1
