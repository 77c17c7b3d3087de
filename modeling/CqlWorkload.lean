import CqlWorkload.Number.Layout
import CqlWorkload.Text.Quoted
import CqlWorkload.Text.Case
import CqlWorkload.Text.Word
import CqlWorkload.Entries
import CqlWorkload.Json.Reader
import CqlWorkload.Json.Writer
import CqlWorkload.Number.Reader
import CqlWorkload.Issue
import CqlWorkload.Schema.Reader
import CqlWorkload.Schema.Writer
import CqlWorkload.Pattern.Reader
import CqlWorkload.Naming.Owner
import CqlWorkload.Log
import CqlWorkload.Failure
import CqlWorkload.Naming.Registry
import CqlWorkload.Binding.Library
import CqlWorkload.Statistic.Ratio
import CqlWorkload.Statement.Slots
import CqlWorkload.Config.Reader
import CqlWorkload.Binding.Accumulator
import CqlWorkload.Schema.Document
import CqlWorkload.Workload.Document
import CqlWorkload.Workload.Simplify
import CqlWorkload.Workload.Exporter
import CqlWorkload.Schema.File
import CqlWorkload.Workload.Format
import CqlWorkload.Config.File
import CqlWorkload.Settings.Reader
import CqlWorkload.Main
import CqlWorkload.Proofs.Entries
import CqlWorkload.Proofs.Schema.Roles
import CqlWorkload.Proofs.Config.Validity
import CqlWorkload.Proofs.Workload.Step
import CqlWorkload.Proofs.Naming.Registry
import CqlWorkload.Proofs.Naming.Template
import CqlWorkload.Proofs.Text.Sorted
import CqlWorkload.Proofs.Naming.Owner
import CqlWorkload.Proofs.Session.Run
import CqlWorkload.Proofs.Session.Ownership
import CqlWorkload.Proofs.Session.Redefinition
import CqlWorkload.Proofs.Statistic.Modulus
import CqlWorkload.Proofs.Statistic.Order
import CqlWorkload.Proofs.Workload.Names
import CqlWorkload.Proofs.Workload.Operations
import CqlWorkload.Proofs.Workload.Refusal
import CqlWorkload.Proofs.Transform.Validity
import CqlWorkload.Proofs.Workload.Coverage
import CqlWorkload.Proofs.Workload.SharedTimeout
import CqlWorkload.Proofs.Workload.Locality
import CqlWorkload.Proofs.Workload.Moduli
import CqlWorkload.Proofs.Workload.Elision
import CqlWorkload.Proofs.Workload.Demand
import CqlWorkload.Proofs.Workload.Shortage
import CqlWorkload.Proofs.Workload.StandardNames
import CqlWorkload.Proofs.Workload.Collision
import CqlWorkload.Proofs.CommandLine.Export
import CqlWorkload.Proofs.Number.Rounding
import CqlWorkload.Proofs.Number.Shortest
import CqlWorkload.Proofs.Number.Digit
import CqlWorkload.Proofs.Number.Layout
import CqlWorkload.Proofs.Json.Scalar
import CqlWorkload.Proofs.Json.Reread
import CqlWorkload.Proofs.Json.Storable
import CqlWorkload.Proofs.Schema.RoundTrip
import CqlWorkload.Proofs.Schema.File
import CqlWorkload.Proofs.Yaml.Cursor
import CqlWorkload.Proofs.Yaml.Quoted
import CqlWorkload.Proofs.Yaml.Single
import CqlWorkload.Proofs.Yaml.Double
import CqlWorkload.Proofs.Yaml.Plain
import CqlWorkload.Proofs.Yaml.Literal
import CqlWorkload.Proofs.Yaml.Scan
import CqlWorkload.Proofs.Yaml.Text
import CqlWorkload.Proofs.Yaml.Key
import CqlWorkload.Proofs.Yaml.Entry
import CqlWorkload.Proofs.Yaml.Document
import CqlWorkload.Proofs.Yaml.Allowed
import CqlWorkload.Proofs.Yaml.Node
import CqlWorkload.Proofs.Yaml.Number
import CqlWorkload.Proofs.Yaml.Reread
import CqlWorkload.Proofs.Workload.Reread
import CqlWorkload.Proofs.Text.Case
import CqlWorkload.Proofs.Pattern.Literal
import CqlWorkload.Proofs.Binding.Resolution
import CqlWorkload.Proofs.Binding.BuiltIn
import CqlWorkload.Proofs.Binding.Configured
import CqlWorkload.Proofs.Schema.KeyCount
import CqlWorkload.Proofs.Text.Marked
import CqlWorkload.Proofs.Statement.Table
import CqlWorkload.Proofs.Statement.Keyspace
import CqlWorkload.Proofs.Transform.Pipeline
import CqlWorkload.Proofs.Transform.Weights
import CqlWorkload.Proofs.Text.Pieces
import CqlWorkload.Proofs.Config.Blockplan
import CqlWorkload.Proofs.Workload.Lookup
import CqlWorkload.Proofs.Config.Timeouts
import CqlWorkload.Proofs.Config.Safety
import CqlWorkload.Proofs.Yaml.Reads
import CqlWorkload.Proofs.Yaml.Faults
import CqlWorkload.Proofs.Yaml.Whole
import CqlWorkload.Proofs.Yaml.Untagged
import CqlWorkload.Proofs.Yaml.Conversion
import CqlWorkload.Proofs.Config.Loading
import CqlWorkload.Proofs.Workload.RereadJson
import CqlWorkload.Proofs.Settings.EnvFile
import CqlWorkload.Proofs.Settings.Precedence
