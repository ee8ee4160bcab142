import IrStream.Text.Lines
import IrStream.Text.Quote
import IrStream.Error

/-!
Symbol resolutions: what the linker decided for each symbol copy of a unit.
A copy is the prevailing definition (visible to regular objects or to IR
only), resolved elsewhere, or preempted by another definition. Resolution
files name them per unit, with the linker plugin's names.
-/

namespace IrStream

inductive Resolution where
  | prevailingDef
  | prevailingDefIronly
  | resolvedElsewhere
  | preempted
  deriving DecidableEq, Repr, Inhabited

namespace Resolution

def isPrevailing : Resolution → Bool
  | prevailingDef | prevailingDefIronly => true
  | _ => false

/-- The canonical plugin name. -/
def pluginName : Resolution → String
  | prevailingDef => "PREVAILING_DEF"
  | prevailingDefIronly => "PREVAILING_DEF_IRONLY"
  | resolvedElsewhere => "RESOLVED_IR"
  | preempted => "PREEMPTED_IR"

/-- A plugin name, with or without the `LDPR_` prefix; the names of
resolutions this library does not tell apart map to the nearest one. -/
def ofPluginName? (name : String) : Option Resolution :=
  let bare := if name.startsWith "LDPR_" then String.ofList (name.toList.drop 5) else name
  match bare with
  | "PREVAILING_DEF" => some prevailingDef
  | "PREVAILING_DEF_IRONLY" => some prevailingDefIronly
  | "PREEMPTED_REG" | "PREEMPTED_IR" => some preempted
  | "RESOLVED_IR" | "RESOLVED_EXEC" | "RESOLVED_DYN" | "UNDEF" => some resolvedElsewhere
  | _ => none

end Resolution

/-- Resolutions given per unit and symbol; a later line overrides an earlier one. -/
structure ResolutionMap where
  /-- Entries, the latest first. -/
  entries : List ((String × String) × Resolution) := []
  deriving Inhabited

namespace ResolutionMap

def insert (m : ResolutionMap) (unit symbol : String) (r : Resolution) : ResolutionMap :=
  { entries := ((unit, symbol), r) :: m.entries }

def get? (m : ResolutionMap) (unit symbol : String) : Option Resolution :=
  m.entries.lookup (unit, symbol)

/-- The latest entry for a unit and symbol wins. -/
theorem get?_insert (m : ResolutionMap) (unit symbol : String) (r : Resolution) :
    (m.insert unit symbol r).get? unit symbol = some r := by
  simp [insert, get?]

/-- One line of a resolution file, numbered from 1, after the current unit. -/
def parseLine (m : ResolutionMap) (unit : Option String) (line : Nat) (raw : String) :
    Except StreamError (ResolutionMap × Option String) :=
  let bad (msg : String) : Except StreamError (ResolutionMap × Option String) :=
    .error (.badResolution line msg)
  let content := Text.trimSpace (String.ofList (raw.toList.takeWhile (· != '#')))
  if content.isEmpty then .ok (m, unit)
  else
    match Text.words content with
    | ["unit", name] => .ok (m, some name)
    | "unit" :: _ => bad "expected `unit <name>`"
    | [symbol, resolution] =>
      match unit with
      | none => bad s!"symbol {symbol} before any unit"
      | some u =>
        match Resolution.ofPluginName? resolution with
        | some r => .ok (m.insert u symbol r, unit)
        | none => bad s!"unknown resolution {resolution}"
    | _ => bad s!"expected `<symbol> <resolution>`, got {Text.quote content}"

/-- Read a resolution file: `unit <name>` lines open a unit, `<symbol>
<resolution>` lines resolve a symbol of it, `#` starts a comment. -/
def parse (text : String) : Except StreamError ResolutionMap := do
  let mut m : ResolutionMap := {}
  let mut unit : Option String := none
  for (raw, i) in (Text.lines text).zipIdx do
    let (m', unit') ← parseLine m unit (i + 1) raw
    m := m'
    unit := unit'
  return m

/-- A resolution file for the entries, the oldest first, each under its own
`unit` line, so that reading it back gives the entries in the same order. -/
def render (m : ResolutionMap) : String :=
  String.join (m.entries.reverse.map fun ((u, s), r) => "unit " ++ u ++ "\n" ++ s ++ " " ++ r.pluginName ++ "\n")

end ResolutionMap

end IrStream
