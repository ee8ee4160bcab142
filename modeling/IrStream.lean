import IrStream.Body.Cfg
import IrStream.Body.Eh
import IrStream.Body.Function
import IrStream.CallGraph.Basic
import IrStream.Codec.Blocks
import IrStream.Codec.Body
import IrStream.Codec.CallGraph
import IrStream.Codec.Cfg
import IrStream.Codec.Decls
import IrStream.Codec.Eh
import IrStream.Codec.Fields
import IrStream.Codec.Locals
import IrStream.Codec.Reader
import IrStream.Codec.Tables
import IrStream.Codec.Writer
import IrStream.Command.Line
import IrStream.Command.Report
import IrStream.Doc
import IrStream.Doc.Parse
import IrStream.Error
import IrStream.Flags.Packing
import IrStream.Flags.Side
import IrStream.Flags.Tree
import IrStream.Link.Pipeline
import IrStream.Link.Resolution
import IrStream.Link.Session
import IrStream.Link.SymbolTable
import IrStream.Main
import IrStream.Program
import IrStream.Real.HexText
import IrStream.Section.Archive
import IrStream.Section.Header
import IrStream.Service.Answer
import IrStream.Service.Bodies
import IrStream.Service.Edits
import IrStream.Service.Input
import IrStream.Service.Link
import IrStream.Service.Models
import IrStream.Service.ProgramInput
import IrStream.Service.Reply
import IrStream.Service.Sections
import IrStream.Service.Streams
import IrStream.Service.Symbols
import IrStream.Service.Tables
import IrStream.Service.Trees
import IrStream.Service.Units
import IrStream.Text.Alphanumeric
import IrStream.Text.GraphemeExtend
import IrStream.Text.Hex
import IrStream.Text.Lines
import IrStream.Text.Printable
import IrStream.Text.Quote
import IrStream.Text.Ranges
import IrStream.Text.Scrub
import IrStream.Tree.Arena
import IrStream.Tree.Code
import IrStream.Tree.Common
import IrStream.Tree.Equivalence
import IrStream.Tree.Locus
import IrStream.Tree.Node
import IrStream.Tree.Visit
import IrStream.View.Body
import IrStream.View.Nodes
import IrStream.View.Program
import IrStream.Wire.Cursor
import IrStream.Wire.Leb128
import IrStream.Wire.Output
import IrStream.Wire.Position
import IrStream.Wire.StringTable
import IrStream.Proofs.Wire
import IrStream.Proofs.Strings
import IrStream.Proofs.Flags
import IrStream.Proofs.Position
import IrStream.Proofs.HexReal
import IrStream.Proofs.Codec.Canonical
import IrStream.Proofs.Codec.Lockstep
import IrStream.Proofs.Codec.Arena
import IrStream.Proofs.Codec.Payload
import IrStream.Proofs.Codec.Tree
import IrStream.Proofs.Section.Framing
import IrStream.Proofs.Codec.DeclsRoundTrip
import IrStream.Proofs.Codec.ReadFrame
import IrStream.Proofs.Codec.GraphFrame
import IrStream.Proofs.Link.SymbolTable
import IrStream.Proofs.Link.Fixup
import IrStream.Proofs.Link.Session
import IrStream.Proofs.CallGraph.DeclIndex
import IrStream.Proofs.Link.MergeRuns
import IrStream.Proofs.Link.FakeResolution
import IrStream.Proofs.Body.EhForest
import IrStream.Proofs.Body.CfgChain
import IrStream.Proofs.Codec.CfgStream
import IrStream.Proofs.Codec.EhRebuild
import IrStream.Proofs.Codec.EhStream
import IrStream.Proofs.Varint
import IrStream.Proofs.PositionRun
import IrStream.Proofs.Tree.Equivalence
import IrStream.Proofs.CallGraph.Encoder
import IrStream.Proofs.Interning
import IrStream.Proofs.FlagTables
import IrStream.Proofs.Codec.DeclTables
import IrStream.Proofs.Codec.Alignment
import IrStream.Proofs.Codec.DeclsAlignment
import IrStream.Proofs.Link.UnitTables
import IrStream.Proofs.CallGraph.Records
import IrStream.Proofs.Link.ResolutionFile
import IrStream.Proofs.Section.Archive
import IrStream.Proofs.Link.BodyOwner
import IrStream.Proofs.Codec.DeclsReadBack
import IrStream.Proofs.Tree.HashConsing
import IrStream.Proofs.Section.Names
import IrStream.Proofs.Codec.Progress
import IrStream.Proofs.Codec.Fuel
import IrStream.Proofs.Codec.Labels
import IrStream.Proofs.Body.EhLookups
import IrStream.Proofs.Tree.Visitors
import IrStream.Proofs.CallGraph.SectionStream
import IrStream.Proofs.CallGraph.SectionRead
import IrStream.Proofs.CallGraph.SectionReplay
import IrStream.Proofs.CallGraph.SectionRoundTrip
import IrStream.Proofs.CallGraph.MergeInvariant
import IrStream.Proofs.CallGraph.UnitMerge
