import IrStream.Service.Reply
import IrStream.Service.Input
import IrStream.Link.SymbolTable

/-!
Requests on resolutions and on the symbol table.
-/

namespace IrStream.Service

def resolutionDoc (r : Option Resolution) : Doc := Doc.opt (fun r => .str r.pluginName) r

def resolutionName (req : Doc) : Decode Doc := do
  return .obj [("resolution", resolutionDoc (Resolution.ofPluginName? (← requiredText req "name")))]

/-- The unit and symbol a query names, when both are strings; a query is a
pair. -/
def queryOf (q : Doc) : Decode (Option (String × String)) :=
  match q with
  | .arr [u, s] => pure do return (← text? u, ← text? s)
  | _ => refuse "query must be [unit, symbol]"

def resolutionParse (req : Doc) : Decode Doc := do
  let text ← requiredText req "text"
  match ResolutionMap.parse text with
  | .error e => return streamError e
  | .ok m =>
    let queries ← list (req.field "queries")
    let results ← queries.mapM fun q => do
      return Doc.opt (fun (u, s) => resolutionDoc (m.get? u s)) (← queryOf q)
    return .obj [("results", .arr results)]

/-- A symbol copy described in a request, with its unit and unit name; the
unit is read only when the copy is merged. -/
structure SymbolRequest where
  info : SymbolInfo
  unit : Doc
  unitName : String
  resolution : Option Resolution

/-- The unit a merged copy comes from: absent it is the first. -/
def SymbolRequest.unitIndex (s : SymbolRequest) : Decode Nat :=
  match s.unit with
  | .null => pure 0
  | u => return (← ranged false 64 (outOfRange "unit") u).toNat

/-- A symbol copy's declaration. -/
def copyOf : Doc → Decode UInt32 := u32Named "copy"

def symbolOf (d : Doc) : Decode SymbolRequest := do
  let kind ← match (text? (d.field "kind")).getD "function" with
    | "function" => pure SymbolKind.function
    | "variable" => pure .var
    | k => refuse s!"unknown symbol kind {k}"
  let resolution := (text? (d.field "resolution")).bind Resolution.ofPluginName?
  return { info := { name := ← requiredText d "name", decl := ⟨(← u32At d "copy").toNat⟩,
                     kind, isPublic := switch (d.field "public"),
                     external := switch (d.field "external"), weak := switch (d.field "weak") },
           unit := d.field "unit", unitName := (text? (d.field "unit_name")).getD "",
           resolution }

def entryDoc (name : Option String) (e : SymbolEntry) : Doc :=
  .obj ((match name with
    | some n => [("name", Doc.str n)]
    | none => []) ++
    [("copy", .nat e.decl.val), ("kind", .str e.kind.name), ("resolution", .str e.resolution.pluginName),
     ("external", .bool e.external), ("unit", .nat e.unit)])

/-- One step on the table; the table after it and the step's result. -/
def symtabStep (m : ResolutionMap) (t : SymbolTable) (step : Doc) : Decode (SymbolTable × Doc) := do
  let merged (t : SymbolTable) (s : SymbolRequest) (r : Resolution) (ok : Doc) :
      Decode (SymbolTable × Doc) := do
    return match t.merge (← s.unitIndex) s.info r with
    | (t, none) => (t, ok)
    | (t, some e) => (t, streamError e)
  match stepOf step with
  | some ("merge", d) =>
    let s ← symbolOf d
    let some r := s.resolution | refuse "merge needs a resolution"
    merged t s r (.bool true)
  | some ("fake", d) => return (t, resolutionDoc (t.fakeResolution (← symbolOf d).info))
  | some ("resolve", d) =>
    let s ← symbolOf d
    return (t, resolutionDoc (t.resolveWith m s.unitName s.info))
  | some ("resolve_merge", d) =>
    let s ← symbolOf d
    match t.resolveWith m s.unitName s.info with
    | some r => merged t s r (.str r.pluginName)
    | none => return (t, .null)
  | some ("prevailing", c) => return (t, .nat (t.prevailing ⟨(← copyOf c).toNat⟩).val)
  | some ("is_prevailing", c) => return (t, .bool (t.isPrevailing ⟨(← copyOf c).toNat⟩))
  | some ("resolution", c) => return (t, resolutionDoc (t.resolution? ⟨(← copyOf c).toNat⟩))
  | some ("entry", n) => return (t, ((text? n).bind t.entry?).elim .null (entryDoc none))
  | some ("symbols", _) => return (t, .arr (t.symbols.map fun (n, e) => entryDoc (some n) e))
  | some ("replacements", _) =>
    return (t, .arr (t.replacements.map fun (a, b) => .arr [.nat a.val, .nat b.val]))
  | some ("len", _) => return (t, .nat t.size)
  | some (name, _) => refuse s!"unknown symtab step {name}"
  | none => refuse s!"unknown symtab step {render step}"

def symtab (req : Doc) : Decode Doc := do
  let text := text? (req.field "resolution")
  match ResolutionMap.parse (text.getD "") with
  | .error e => return streamError e
  | .ok m =>
    let (_, results) ← (← list (req.field "steps")).foldlM (fun (acc : SymbolTable × Array Doc) step => do
      let (t, r) ← symtabStep m acc.1 step
      return (t, acc.2.push r)) ({}, #[])
    return .obj [("results", .arr results.toList)]

end IrStream.Service
