import ViewCompiler.Compile.Metrics
import ViewCompiler.Main
import ViewCompiler.Program.Reader
import ViewCompiler.Proofs.Compile.Agreement
import ViewCompiler.Proofs.Compile.Content
import ViewCompiler.Proofs.Compile.Lexical
import ViewCompiler.Proofs.Compile.Location
import ViewCompiler.Proofs.Compile.Transparency
import ViewCompiler.Proofs.Config
import ViewCompiler.Proofs.Document.Json
import ViewCompiler.Proofs.Document.Shape
import ViewCompiler.Proofs.Document.Yaml
import ViewCompiler.Proofs.Graph.Order
import ViewCompiler.Proofs.Metadata.Getters
import ViewCompiler.Proofs.ParseCache.Linked
import ViewCompiler.Proofs.Path
import ViewCompiler.Proofs.Program.Closure
import ViewCompiler.Proofs.Program.Document
import ViewCompiler.Proofs.Program.Projection
import ViewCompiler.Proofs.Program.RoundTrip
import ViewCompiler.Proofs.Reconcile.Identity
import ViewCompiler.Proofs.Reconcile.Moves
import ViewCompiler.Proofs.Reconcile.Rearrangement
import ViewCompiler.Proofs.Registry.Announcements
import ViewCompiler.Proofs.Registry.Tag
import ViewCompiler.Proofs.Registry.TagIndex
import ViewCompiler.Proofs.Scope.Coverage
import ViewCompiler.Proofs.Scope.Delivery
import ViewCompiler.Proofs.Scope.Partition
import ViewCompiler.Proofs.Scope.Preorder
import ViewCompiler.Proofs.Style.Offset
import ViewCompiler.Proofs.Template.Comment
import ViewCompiler.Proofs.Template.Literal
import ViewCompiler.Proofs.Template.RawText
import ViewCompiler.Proofs.Template.RoundTrip
import ViewCompiler.Proofs.Template.Shorthand
import ViewCompiler.Proofs.Template.Tiling
import ViewCompiler.Proofs.Template.Totality
import ViewCompiler.Proofs.Template.WellFormed
import ViewCompiler.Proofs.Template.Whitespace
import ViewCompiler.Proofs.Text.Digits
import ViewCompiler.Proofs.Watch.Debouncer
import ViewCompiler.Proofs.Watch.Exclusion
import ViewCompiler.Reconcile.Instances
