import Variability.Analysis
import Variability.Command
import Variability.CommandLine
import Variability.Config.Basic
import Variability.Config.File
import Variability.Config.Template
import Variability.Files.Basic
import Variability.Files.Tree
import Variability.Glob
import Variability.Graph.Basic
import Variability.Graph.Label
import Variability.Graph.NameTable
import Variability.Graph.Pattern
import Variability.Graph.Property
import Variability.Graph.Reachable
import Variability.Java.File
import Variability.Java.Grammar.Basic
import Variability.Java.Grammar.Declaration
import Variability.Java.Grammar.Expression
import Variability.Java.Grammar.Statement
import Variability.Java.Grammar.Type
import Variability.Java.Reader
import Variability.Java.Syntax
import Variability.Java.Token
import Variability.Java.WrittenType
import Variability.Main
import Variability.Path
import Variability.Project.Collect
import Variability.Project.Flatten
import Variability.Project.Index
import Variability.Project.Load
import Variability.Project.Lookup
import Variability.Project.Resolve
import Variability.Proofs.Accounting
import Variability.Proofs.Aggregation
import Variability.Proofs.Analysis
import Variability.Proofs.Attempts
import Variability.Proofs.Available
import Variability.Proofs.Corrections
import Variability.Proofs.Declared
import Variability.Proofs.Delivery
import Variability.Proofs.DesignPatterns
import Variability.Proofs.Detection
import Variability.Proofs.Documents
import Variability.Proofs.EdgeSets
import Variability.Proofs.Effect
import Variability.Proofs.Emission
import Variability.Proofs.Enclosing
import Variability.Proofs.Encodings
import Variability.Proofs.Entries
import Variability.Proofs.Exploration
import Variability.Proofs.FileOrder
import Variability.Proofs.GenericTypes
import Variability.Proofs.Graph
import Variability.Proofs.Growth
import Variability.Proofs.History
import Variability.Proofs.Hotspots
import Variability.Proofs.Idempotence
import Variability.Proofs.Invocations
import Variability.Proofs.LabelMeaning
import Variability.Proofs.Links
import Variability.Proofs.Lookup
import Variability.Proofs.Members
import Variability.Proofs.Metrics
import Variability.Proofs.NameCount
import Variability.Proofs.Naming
import Variability.Proofs.Numbers
import Variability.Proofs.Packages
import Variability.Proofs.Queries
import Variability.Proofs.Reachable
import Variability.Proofs.Reading
import Variability.Proofs.Representation
import Variability.Proofs.Retries
import Variability.Proofs.Rule
import Variability.Proofs.SameNames
import Variability.Proofs.Scope
import Variability.Proofs.SourceOrder
import Variability.Proofs.Sweeps
import Variability.Proofs.Thresholds
import Variability.Proofs.TypeLevel
import Variability.Proofs.Walk
import Variability.Proofs.WellFormed
import Variability.Proofs.WrittenTypes
import Variability.Report.Document
import Variability.Report.Duration
import Variability.Report.Json
import Variability.Report.Output
import Variability.Report.Percent
import Variability.Report.Style
import Variability.Report.Terminal
import Variability.Source.Event
import Variability.Store.Basic
import Variability.Store.Retry
import Variability.Store.Session
import Variability.Sweep.Basic
import Variability.Sweep.Compositions
import Variability.Sweep.Declarations
import Variability.Sweep.Factories
import Variability.Sweep.Roles
import Variability.Sweep.Supertypes
import Variability.Sweep.Target
import Variability.Text.Blank
import Variability.Text.Encoding
import Variability.Text.Hidden
import Variability.Text.Name
import Variability.Text.Quoted
import Variability.Variation.Hotspot
import Variability.Variation.Metric
import Variability.Variation.Point
import Variability.Variation.Statistics
import Variability.Yaml.Node
import Variability.Yaml.Scalar
import Variability.Yaml.Scanner
import Variability.Yaml.Token
