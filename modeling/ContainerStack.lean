import ContainerStack.CommandLine.Arguments
import ContainerStack.CommandLine.Report
import ContainerStack.CommandLine.Run
import ContainerStack.Composition.Basic
import ContainerStack.Composition.Json
import ContainerStack.Document.Upgrade
import ContainerStack.Entries
import ContainerStack.EnvFile
import ContainerStack.EnvPath
import ContainerStack.Error
import ContainerStack.Expansion
import ContainerStack.Fault
import ContainerStack.FileTree
import ContainerStack.Format.Duration
import ContainerStack.Format.Port
import ContainerStack.Format.Subnet
import ContainerStack.Image
import ContainerStack.Json.Basic
import ContainerStack.Json.Printer
import ContainerStack.Json.Reader
import ContainerStack.Loading.Basic
import ContainerStack.Loading.Composition
import ContainerStack.Main
import ContainerStack.Normal.Check
import ContainerStack.Normal.Document
import ContainerStack.Normal.Entity
import ContainerStack.Normal.Field
import ContainerStack.Number.Basic
import ContainerStack.Number.Double
import ContainerStack.Number.Shortest
import ContainerStack.Pipeline
import ContainerStack.Schema.Basic
import ContainerStack.Schema.Documents
import ContainerStack.Schema.Violation
import ContainerStack.Session
import ContainerStack.Settings
import ContainerStack.Starter
import ContainerStack.Startup
import ContainerStack.Table
import ContainerStack.Template.Item
import ContainerStack.Template.Reader
import ContainerStack.Template.Value
import ContainerStack.Text.Blank
import ContainerStack.Text.Digit
import ContainerStack.Text.Pattern
import ContainerStack.Text.Shown
import ContainerStack.Text.Split
import ContainerStack.Text.Visible
import ContainerStack.Version
import ContainerStack.Yaml.Printer
import ContainerStack.Yaml.Reader
import ContainerStack.Yaml.Scalar
import ContainerStack.Proofs.Startup.Order
import ContainerStack.Proofs.Startup.Composition
import ContainerStack.Proofs.Startup.Walk
import ContainerStack.Proofs.Startup.Built
import ContainerStack.Proofs.Startup.Cycle
import ContainerStack.Proofs.Outcome
import ContainerStack.Proofs.Table
import ContainerStack.Proofs.EnvPath
import ContainerStack.Proofs.Normal.Check
import ContainerStack.Proofs.Normal.Field
import ContainerStack.Proofs.Normal.Entity
import ContainerStack.Proofs.Document.Upgrade
import ContainerStack.Proofs.Normal.Document
import ContainerStack.Proofs.Pipeline
import ContainerStack.Proofs.Coherence
import ContainerStack.Proofs.Normal.Written
import ContainerStack.Proofs.FixedPoint
import ContainerStack.Proofs.Schema.Validity
import ContainerStack.Proofs.Schema.Documents
import ContainerStack.Proofs.Schema.Written
import ContainerStack.Proofs.Renormalization
import ContainerStack.Proofs.Document.Chain
import ContainerStack.Proofs.Upgrading
import ContainerStack.Proofs.Expansion.Fill
import ContainerStack.Proofs.Expansion.Merging
import ContainerStack.Proofs.Expansion.Opening
import ContainerStack.Proofs.Expansion.Stage
import ContainerStack.Proofs.Expansion.Rereading
import ContainerStack.Proofs.Template.Evaluation
import ContainerStack.Proofs.Template.Requirement
import ContainerStack.Proofs.EnvFile.Layout
import ContainerStack.Proofs.Failing
import ContainerStack.Proofs.Normal.Faults
import ContainerStack.Proofs.Errors
import ContainerStack.Proofs.Outline
import ContainerStack.Proofs.Runs
import ContainerStack.Proofs.FileTree.Confinement
import ContainerStack.Proofs.Schema.Structure
import ContainerStack.Proofs.Document.Recoding
import ContainerStack.Proofs.Document.Reordering
import ContainerStack.Proofs.Loading.Written
import ContainerStack.Proofs.Loading.Images
import ContainerStack.Proofs.Loading.RoundTrip
import ContainerStack.Proofs.EnvPath.Resolution
import ContainerStack.Proofs.EnvPath.Rereading
import ContainerStack.Proofs.Expansion.Frame
import ContainerStack.Proofs.Expansion.Canonical
import ContainerStack.Proofs.Normal.Assignments
import ContainerStack.Proofs.Document.Retention
import ContainerStack.Proofs.Document.Spelling
import ContainerStack.Proofs.FileTree.Descent
import ContainerStack.Proofs.Format.Port
import ContainerStack.Proofs.Format.Duration
import ContainerStack.Proofs.Format.Subnet
import ContainerStack.Proofs.Starter
import ContainerStack.Proofs.Expansion.Concurrent
