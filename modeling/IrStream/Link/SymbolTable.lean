import Std.Data.HashMap
import Std.Data.HashSet
import IrStream.Link.Resolution
import IrStream.Program
import IrStream.Codec.Tables

/-!
The link-wide symbol table. Every unit's copy of a public function or
variable is merged under its link-time name; the table keeps, per name, the
entry of the copy that prevails, and per copy its name and resolution, so
that every copy can be replaced by the prevailing one.
-/

namespace IrStream

inductive SymbolKind where
  | function
  /-- A variable. -/
  | var
  deriving DecidableEq, Repr, Inhabited

def SymbolKind.name : SymbolKind → String
  | function => "function"
  | var => "variable"

/-- What the table needs to know of one copy of a symbol. -/
structure SymbolInfo where
  name : String
  decl : NodeId
  kind : SymbolKind
  isPublic : Bool
  external : Bool
  weak : Bool
  deriving DecidableEq, Repr, Inhabited

/-- The symbol a declaration stands for, if it is a function or variable
with a link-time name. -/
def SymbolInfo.of? (p : Program) (decl : NodeId) : Option SymbolInfo := do
  let n ← p.arena.get? decl
  let kind ← match n.code with
    | .functionDecl => some SymbolKind.function
    | .varDecl => some .var
    | _ => none
  let name ← p.symbolName? decl
  return { name, decl, kind, isPublic := n.flags.isPublic, external := n.flags.external,
           weak := n.flags.weak }

/-- The copy that currently prevails for a name. -/
structure SymbolEntry where
  decl : NodeId
  kind : SymbolKind
  resolution : Resolution
  external : Bool
  unit : Nat
  deriving DecidableEq, Repr, Inhabited

structure SymbolTable where
  entries : Std.HashMap String SymbolEntry := {}
  /-- Names in first-seen order. -/
  order : Array String := #[]
  /-- Every merged copy's name and resolution. -/
  copies : Std.HashMap NodeId (String × Resolution) := {}
  deriving Inhabited

namespace SymbolTable

def entry? (t : SymbolTable) (name : String) : Option SymbolEntry := t.entries.get? name

/-- Merge one copy. The copy is recorded even when the merge fails. A
prevailing copy replaces a non-prevailing entry and clashes with a
prevailing one; a non-prevailing definition replaces a non-prevailing
external entry. -/
def merge (t : SymbolTable) (unit : Nat) (s : SymbolInfo) (r : Resolution) :
    SymbolTable × Option StreamError :=
  let t := { t with copies := t.copies.insert s.decl (s.name, r) }
  let candidate : SymbolEntry := { decl := s.decl, kind := s.kind, resolution := r,
                                   external := s.external, unit }
  match t.entries.get? s.name with
  | none => ({ t with order := t.order.push s.name, entries := t.entries.insert s.name candidate }, none)
  | some e =>
    if e.kind != s.kind then (t, some (.symbolKindConflict s.name))
    else if r.isPrevailing then
      if e.resolution.isPrevailing then (t, some (.alreadyDefined s.name))
      else ({ t with entries := t.entries.insert s.name candidate }, none)
    else if !e.resolution.isPrevailing && e.external && !s.external then
      ({ t with entries := t.entries.insert s.name candidate }, none)
    else (t, none)

/-- The declaration that prevails over copy `decl`; itself if it is no merged copy. -/
def prevailing (t : SymbolTable) (decl : NodeId) : NodeId :=
  match (t.copies.get? decl).bind fun (name, _) => t.entries.get? name with
  | some e => e.decl
  | none => decl

def isPrevailing (t : SymbolTable) (decl : NodeId) : Bool := t.prevailing decl == decl

def resolution? (t : SymbolTable) (decl : NodeId) : Option Resolution := (t.copies.get? decl).map (·.2)

/-- Entries with their names, in first-seen order. -/
def symbols (t : SymbolTable) : List (String × SymbolEntry) :=
  t.order.toList.filterMap fun name => (t.entries.get? name).map (name, ·)

def size (t : SymbolTable) : Nat := t.entries.size

/-- Each copy that does not prevail, with the declaration that does, by copy id. -/
def replacements (t : SymbolTable) : List (NodeId × NodeId) :=
  let pairs := t.copies.toList.filterMap fun (decl, _) =>
    let dst := t.prevailing decl
    if dst != decl then some (decl, dst) else none
  pairs.mergeSort fun a b => a.1.val ≤ b.1.val

/-- The resolution that `FakeResolution` would choose without a resolution
file: hidden symbols get none, external ones are resolved elsewhere, strong
definitions prevail, and a weak definition prevails unless a prevailing or
defined copy is already in the table. -/
def fakeResolution (t : SymbolTable) (s : SymbolInfo) : Option Resolution :=
  if !s.isPublic then none
  else if s.external then some .resolvedElsewhere
  else if !s.weak then some .prevailingDef
  else
    let claimed := match t.entry? s.name with
      | some e => e.resolution.isPrevailing || !e.external
      | none => false
    some (if claimed then .preempted else .prevailingDef)

/-- The resolution file's choice for the copy, else the fallback choice. -/
def resolveWith (t : SymbolTable) (m : ResolutionMap) (unit : String) (s : SymbolInfo) :
    Option Resolution :=
  (m.get? unit s.name).orElse fun _ => t.fakeResolution s

/-- Replace every non-prevailing copy by its prevailing declaration: in every
live node's children, in the unit tables, in the globals (keeping the first
of duplicates) and in the call graph; drop the copies' bodies and free them.
Returns the program, the unit tables and the number of copies replaced. -/
def apply (t : SymbolTable) (p : Program) (units : List UnitDecls) : Program × List UnitDecls × Nat :=
  let pairs := t.replacements
  if pairs.isEmpty then (p, units, 0)
  else
    let map : Std.HashMap NodeId NodeId := pairs.foldl (fun m (a, b) => m.insert a b) {}
    let resolve (id : NodeId) : NodeId := map.getD id id
    let arena := p.arena.ids.foldl (fun (a : Arena) id =>
      if map.contains id then a
      else a.modify id (Node.mapChildren fun slot => slot.map resolve)) p.arena
    let units := units.map (·.map resolve)
    let (globals, _) := p.globals.foldl (fun (acc : Array NodeId × Std.HashSet NodeId) g =>
      let g := resolve g
      if acc.2.contains g then acc else (acc.1.push g, acc.2.insert g)) (#[], {})
    let p := { p with arena, globals := globals.toList }
    let p := pairs.foldl (fun (p : Program) (src, dst) =>
      let p := { p with callgraph := p.callgraph.replaceDecl src dst }
      let p := p.eraseBody src
      { p with arena := p.arena.free src }) p
    (p, units, pairs.length)

end SymbolTable

end IrStream
