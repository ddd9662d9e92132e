import PackagePlan.Catalog
import PackagePlan.Cli.Arguments
import PackagePlan.Cli.Run
import PackagePlan.Description.Gnome
import PackagePlan.Description.Toml
import PackagePlan.Exclusion
import PackagePlan.Graph.Closure
import PackagePlan.Graph.Roots
import PackagePlan.Graph.Waves
import PackagePlan.Headers
import PackagePlan.Json
import PackagePlan.Main
import PackagePlan.Path
import PackagePlan.Plan.Report
import PackagePlan.Plan.State
import PackagePlan.Platform
import PackagePlan.Settings.Loader
import PackagePlan.Sha256
import PackagePlan.Target
import PackagePlan.Text.Blank
import PackagePlan.Text.Fields
import PackagePlan.Text.Lowercase
import PackagePlan.Text.Quoted
import PackagePlan.Toml.Grammar
import PackagePlan.Tree.Edit
import PackagePlan.Proofs.Graph.Dependency
import PackagePlan.Proofs.Graph.Order
import PackagePlan.Proofs.Description.Materialize
import PackagePlan.Proofs.Exclusion
import PackagePlan.Proofs.Graph.Closure
import PackagePlan.Proofs.Path.Ordering
import PackagePlan.Proofs.Plan.Consistency
import PackagePlan.Proofs.Source.Contents
import PackagePlan.Proofs.Source.Containment
import PackagePlan.Proofs.Source.Exclusions
import PackagePlan.Proofs.Catalog
import PackagePlan.Proofs.Constraints
import PackagePlan.Proofs.Description.Writing
import PackagePlan.Proofs.Headers.Visibility
import PackagePlan.Proofs.Graph.Roots
import PackagePlan.Proofs.Plan.Making
import PackagePlan.Proofs.Plan.Ownership
import PackagePlan.Proofs.Plan.Lifecycle
import PackagePlan.Proofs.Plan.Platform
import PackagePlan.Proofs.Plan.Fingerprint
import PackagePlan.Proofs.Plan.Scope
import PackagePlan.Proofs.Minimums
import PackagePlan.Proofs.Settings.Layers
import PackagePlan.Proofs.Settings.Platform
import PackagePlan.Proofs.Cli.UserFile
import PackagePlan.Proofs.Graph.Cycles
import PackagePlan.Proofs.Graph.Layers
import PackagePlan.Proofs.Settings.Versions
import PackagePlan.Proofs.Cli.Versions
import PackagePlan.Proofs.Graph.Appending
import PackagePlan.Proofs.Graph.Ties
import PackagePlan.Proofs.Graph.References
import PackagePlan.Proofs.Selection
import PackagePlan.Proofs.Plan.Spelling
import PackagePlan.Proofs.Exclusion.Patterns
import PackagePlan.Proofs.Plan.Search
import PackagePlan.Proofs.Headers.History
import PackagePlan.Proofs.Version.Texts
import PackagePlan.Proofs.Plan.SearchedHeaders
import PackagePlan.Proofs.Platform
import PackagePlan.Proofs.Settings.Checked
import PackagePlan.Proofs.Settings.ProjectRoot
import PackagePlan.Proofs.Source.Places
