import IrStream.Service.Streams
import IrStream.Service.Tables
import IrStream.Service.Sections
import IrStream.Service.Trees
import IrStream.Service.Bodies
import IrStream.Service.Units
import IrStream.Service.Symbols
import IrStream.Service.Link
import IrStream.Service.Models
import IrStream.Doc.Parse

/-!
The request dispatcher: one answer document for each request document, and
for each line of request text, which is first read as JSON.
-/

namespace IrStream.Service

/-- The handler of each operation name. -/
def handler? : String → Option (Doc → Decode Doc)
  | "encode" => some encodeItems
  | "decode" => some decodeReads
  | "strings" => some stringOps
  | "string_read" => some stringRead
  | "real_format" => some realFormat
  | "real_parse" => some realParse
  | "int_cst" => some intCst
  | "pack_flags" => some packFlags
  | "unpack_flags" => some unpackFlags
  | "code_info" => some codeInfo
  | "tag_info" => some tagInfo
  | "locus" => some locusItems
  | "locus_read" => some locusRead
  | "label_table" => some labelTable
  | "section_write" => some sectionWrite
  | "section_parse" => some sectionParse
  | "section_name" => some sectionName
  | "section_kind" => some sectionKind
  | "object_parse" => some objectParse
  | "object_build" => some objectBuild
  | "tree_roundtrip" => some treeRoundtrip
  | "write_tree" => some writeTreeOp
  | "read_tree" => some readTreeOp
  | "cfg_write" => some cfgWrite
  | "cfg_read" => some cfgRead
  | "verify_body" => some verifyBody
  | "body_roundtrip" => some bodyRoundtrip
  | "read_body" => some readBody
  | "write_decls" => some writeDecls
  | "read_decls" => some readDecls
  | "cgraph_encoder" => some graphEncoder
  | "write_unit" => some writeUnitOp
  | "link" => some linkOp
  | "session" => some sessionOp
  | "cfg_ops" => some cfgOps
  | "eh_ops" => some ehOps
  | "callgraph_ops" => some callGraphOps
  | "equiv" => some equiv
  | "resolution_name" => some resolutionName
  | "resolution_parse" => some resolutionParse
  | "symtab" => some symtab
  | _ => none

/-- The answer to one request. -/
def answer (req : Doc) : Doc :=
  settle do
    let op ← requiredText req "op"
    match handler? op with
    | some h => h req
    | none => refuse s!"unknown op {op}"

/-- The answer to one line of request text; text that is not JSON is a
malformed request. -/
def answerText (text : String) : Doc :=
  match Doc.parse text with
  | .ok req => answer req
  | .error e => badInput s!"invalid JSON: {e.message}"

end IrStream.Service
