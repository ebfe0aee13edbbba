import ClassAtlas.Analysis.Progress
import ClassAtlas.Analysis.Results
import ClassAtlas.Analysis.Run
import ClassAtlas.Analysis.Schedule
import ClassAtlas.ClassFile.Annotations
import ClassAtlas.ClassFile.Bytecode
import ClassAtlas.ClassFile.ConstantPool
import ClassAtlas.ClassFile.Decoder
import ClassAtlas.ClassFile.Error
import ClassAtlas.ClassFile.ModifiedUtf8
import ClassAtlas.ClassFile.Record
import ClassAtlas.ClassFile.References
import ClassAtlas.CommandLine.Argument
import ClassAtlas.CommandLine.Execute
import ClassAtlas.CommandLine.Parse
import ClassAtlas.Dependency
import ClassAtlas.Descriptor.Error
import ClassAtlas.Descriptor.Scan
import ClassAtlas.Discovery.Archive
import ClassAtlas.Discovery.Container
import ClassAtlas.Discovery.Directory
import ClassAtlas.Discovery.Entry
import ClassAtlas.Failure
import ClassAtlas.Fault
import ClassAtlas.FileSystem.Error
import ClassAtlas.FileSystem.Path
import ClassAtlas.FileSystem.Tree
import ClassAtlas.FileSystem.World
import ClassAtlas.Glob
import ClassAtlas.Graph.Build
import ClassAtlas.Graph.CommandRenderer
import ClassAtlas.Graph.Document
import ClassAtlas.Graph.Export
import ClassAtlas.Graph.Legend
import ClassAtlas.Graph.LegendFile
import ClassAtlas.Graph.Target
import ClassAtlas.Main
import ClassAtlas.Name
import ClassAtlas.NameSet
import ClassAtlas.Package.Grouping
import ClassAtlas.Package.Index
import ClassAtlas.Process
import ClassAtlas.Proofs.Analysis.Accounting
import ClassAtlas.Proofs.Analysis.Classification
import ClassAtlas.Proofs.Analysis.Lookup
import ClassAtlas.Proofs.Analysis.OwnTypes
import ClassAtlas.Proofs.Analysis.Schedule
import ClassAtlas.Proofs.Checked
import ClassAtlas.Proofs.ClassFile.AnnotationLayout
import ClassAtlas.Proofs.ClassFile.ArrayNames
import ClassAtlas.Proofs.ClassFile.Attribute
import ClassAtlas.Proofs.ClassFile.CodeLayout
import ClassAtlas.Proofs.ClassFile.ConstantLayout
import ClassAtlas.Proofs.ClassFile.Decoding
import ClassAtlas.Proofs.ClassFile.EndOfCode
import ClassAtlas.Proofs.ClassFile.Gathering
import ClassAtlas.Proofs.ClassFile.Indexed.AnnotationBounds
import ClassAtlas.Proofs.ClassFile.Indexed.Annotations
import ClassAtlas.Proofs.ClassFile.Indexed.Bytecode
import ClassAtlas.Proofs.ClassFile.Indexed.Constants
import ClassAtlas.Proofs.ClassFile.Indexed.Extraction
import ClassAtlas.Proofs.ClassFile.Indexed.Reader
import ClassAtlas.Proofs.ClassFile.Indexed.Record
import ClassAtlas.Proofs.ClassFile.MemberLayout
import ClassAtlas.Proofs.ClassFile.ModifiedUtf8
import ClassAtlas.Proofs.ClassFile.Numeral
import ClassAtlas.Proofs.ClassFile.Operation
import ClassAtlas.Proofs.ClassFile.RecordLayout
import ClassAtlas.Proofs.ClassFile.Resolution
import ClassAtlas.Proofs.ClassFile.Sites
import ClassAtlas.Proofs.ClassFile.SlotNumbering
import ClassAtlas.Proofs.ClassFile.Truncation
import ClassAtlas.Proofs.ClassFile.Walk
import ClassAtlas.Proofs.CommandLine.Reading
import ClassAtlas.Proofs.CommandLine.ReportFile
import ClassAtlas.Proofs.Descriptor.Acceptance
import ClassAtlas.Proofs.Descriptor.Derivation
import ClassAtlas.Proofs.Descriptor.ErrorLocation
import ClassAtlas.Proofs.Descriptor.Grammar
import ClassAtlas.Proofs.Descriptor.Indexed
import ClassAtlas.Proofs.Descriptor.Steadiness
import ClassAtlas.Proofs.Discovery.ArchiveEntry
import ClassAtlas.Proofs.Discovery.DepthLimit
import ClassAtlas.Proofs.Discovery.Flattening
import ClassAtlas.Proofs.Discovery.NodeNames
import ClassAtlas.Proofs.Discovery.Pruning
import ClassAtlas.Proofs.Discovery.Resources
import ClassAtlas.Proofs.FileSystem.Frame
import ClassAtlas.Proofs.FileSystem.Linkless
import ClassAtlas.Proofs.FileSystem.Path
import ClassAtlas.Proofs.FileSystem.Resolution
import ClassAtlas.Proofs.FileSystem.Tree
import ClassAtlas.Proofs.FileSystem.Writing
import ClassAtlas.Proofs.Graph.Drawing
import ClassAtlas.Proofs.Graph.Export
import ClassAtlas.Proofs.Graph.Grouping
import ClassAtlas.Proofs.Graph.LegendText
import ClassAtlas.Proofs.Graph.Lexer
import ClassAtlas.Proofs.Graph.Outline
import ClassAtlas.Proofs.Graph.OwnFiles
import ClassAtlas.Proofs.Graph.Stacking
import ClassAtlas.Proofs.NameSet
import ClassAtlas.Proofs.Outcome
import ClassAtlas.Proofs.Package.Grouping
import ClassAtlas.Proofs.Package.Index
import ClassAtlas.Proofs.Package.Positions
import ClassAtlas.Proofs.Report.CsvReading
import ClassAtlas.Proofs.Settings.Constraints
import ClassAtlas.Proofs.Settings.Layering
import ClassAtlas.Proofs.Text.Lowercase
import ClassAtlas.Proofs.Text.Utf8
import ClassAtlas.Report.Color
import ClassAtlas.Report.Csv
import ClassAtlas.Report.Format
import ClassAtlas.Report.Json
import ClassAtlas.Report.OutputFormat
import ClassAtlas.Report.Target
import ClassAtlas.Resource
import ClassAtlas.Settings.Basic
import ClassAtlas.Settings.Check
import ClassAtlas.Settings.Environment
import ClassAtlas.Settings.File
import ClassAtlas.Settings.Load
import ClassAtlas.Settings.Template
import ClassAtlas.Shell.Arithmetic
import ClassAtlas.Shell.Builtin
import ClassAtlas.Shell.Condition
import ClassAtlas.Shell.Expansion
import ClassAtlas.Shell.FileTools
import ClassAtlas.Shell.Interpreter
import ClassAtlas.Shell.Lines
import ClassAtlas.Shell.Machine
import ClassAtlas.Shell.Pattern
import ClassAtlas.Shell.Printing
import ClassAtlas.Shell.Program
import ClassAtlas.Shell.Redirection
import ClassAtlas.Shell.Scope
import ClassAtlas.Shell.Script
import ClassAtlas.Shell.TextTools
import ClassAtlas.Shell.Token
import ClassAtlas.Shell.Tool
import ClassAtlas.Shell.Toolbox
import ClassAtlas.Shell.Word
import ClassAtlas.Text.Alphanumeric
import ClassAtlas.Text.Blank
import ClassAtlas.Text.CodeRange
import ClassAtlas.Text.Cut
import ClassAtlas.Text.Lowercase
import ClassAtlas.Text.Number
import ClassAtlas.Text.Utf8
import ClassAtlas.Time
import ClassAtlas.Toml.Document
import ClassAtlas.Toml.Scalar
import ClassAtlas.Toml.Text
import ClassAtlas.Toml.Value
import ClassAtlas.Zip.Archive
import ClassAtlas.Zip.Checksum
import ClassAtlas.Zip.Directory
import ClassAtlas.Zip.EntryName
import ClassAtlas.Zip.Error
import ClassAtlas.Zip.ExtraField
import ClassAtlas.Zip.Fields
import ClassAtlas.Zip.Inflate
