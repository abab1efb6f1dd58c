import ClassImports.ClassFile.Reader
import ClassImports.ClassFile.Writer
import ClassImports.Import.Scan
import ClassImports.Text.Quoted
import ClassImports.Decimal.Shortest
import ClassImports.ClassFile.Json
import ClassImports.Glob.Parser
import ClassImports.Glob.Match
import ClassImports.ImportFilter
import ClassImports.Summary
import ClassImports.PoolDump
import ClassImports.Toml.Document
import ClassImports.Config
import ClassImports.FileSystem.Basic
import ClassImports.Selection.Basic
import ClassImports.Command
import ClassImports.CommandLine.Run
import ClassImports.Main
import ClassImports.Proofs.Results
import ClassImports.Proofs.BigEndian
import ClassImports.Proofs.Text.Utf8
import ClassImports.Proofs.ModifiedUtf8.Sequence
import ClassImports.Proofs.ModifiedUtf8.RoundTrip
import ClassImports.Proofs.ModifiedUtf8.Standard
import ClassImports.Proofs.ModifiedUtf8.Canonical
import ClassImports.Proofs.ModifiedUtf8.Joined
import ClassImports.Proofs.Pool.Layout
import ClassImports.Proofs.ClassFile.Accepts
import ClassImports.Proofs.ClassFile.Grammar
import ClassImports.Proofs.ClassFile.RoundTrip
import ClassImports.Proofs.Selection.Verdict
import ClassImports.Proofs.Discovery.Walk
import ClassImports.Proofs.Discovery.Below
import ClassImports.Proofs.Discovery.Exclusion
import ClassImports.Proofs.ClassFile.Truncation
import ClassImports.Proofs.ModifiedUtf8.Size
import ClassImports.Proofs.ClassFile.Rewriting
import ClassImports.Proofs.Import.Malformed
import ClassImports.Proofs.Import.Set
import ClassImports.Proofs.PoolDump
import ClassImports.Proofs.Import.SetRun
import ClassImports.Proofs.Pool.Growth
import ClassImports.Proofs.Pool.Addressing
import ClassImports.Proofs.Pool.Classless
import ClassImports.Proofs.FileSystem.Order
import ClassImports.Proofs.FileSystem.Location
import ClassImports.Proofs.Discovery.Run
import ClassImports.Proofs.Import.ObjectType
import ClassImports.Proofs.Import.Pieces
import ClassImports.Proofs.Import.Reference
import ClassImports.Proofs.Import.QualifiedName
import ClassImports.Proofs.Analysis
import ClassImports.Proofs.FileSystem.SameClassFiles
import ClassImports.Proofs.Unparsable
import ClassImports.Proofs.Import.Descriptor
import ClassImports.Proofs.Import.InternalName
import ClassImports.Proofs.Settings
import ClassImports.Proofs.Dependence
import ClassImports.Proofs.Discovery.Selected
import ClassImports.Proofs.Discovery.Monotone
import ClassImports.Proofs.Analysis.Items
import ClassImports.Proofs.Summary.Merge
import ClassImports.Proofs.Summary.Release
import ClassImports.Proofs.ClassFile.Size
import ClassImports.Proofs.Glob.Positions
import ClassImports.Proofs.ReportText
import ClassImports.Proofs.Glob.Literal
import ClassImports.Proofs.IgnoredPackages
