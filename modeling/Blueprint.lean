import Blueprint.Table
import Blueprint.Text.Blank
import Blueprint.Text.Fields
import Blueprint.Text.Quoted
import Blueprint.Text.Utf8
import Blueprint.Location.Path
import Blueprint.Definition.Basic
import Blueprint.Log.Traced
import Blueprint.Location.Url
import Blueprint.Error
import Blueprint.Environment.Locations
import Blueprint.Dependency.Tracker
import Blueprint.Scope
import Blueprint.Registry.Lineage
import Blueprint.Registry.Forest
import Blueprint.Document.Library
import Blueprint.Declaration.Component
import Blueprint.Compile.Basic
import Blueprint.Compile.Rules
import Blueprint.Context
import Blueprint.Log.Subscriber
import Blueprint.Document.FileTree
import Blueprint.Proofs.Dependency.Teardown
import Blueprint.Proofs.Lineage.Atomicity
import Blueprint.Proofs.Placeholder.Termination
import Blueprint.Proofs.Lineage.Lookup
import Blueprint.Proofs.Compile.ImportGraph
import Blueprint.Proofs.Compile.LastStatement
import Blueprint.Proofs.Lineage.ParentChain
import Blueprint.Proofs.Lineage.Spread
import Blueprint.Proofs.Lineage.Reordering
import Blueprint.Proofs.Compile.Reload
import Blueprint.Proofs.Lineage.FailedMerge
import Blueprint.Proofs.Lineage.CompleteTeardown
import Blueprint.Proofs.Definition.Content
import Blueprint.Proofs.Names.Extension
import Blueprint.Proofs.Lineage.AppendOnly
import Blueprint.Proofs.Lineage.Restatement
import Blueprint.Proofs.Compile.Alike
import Blueprint.Proofs.Compile.Statements
import Blueprint.Proofs.Compile.Editing
import Blueprint.Proofs.Compile.Grouping
import Blueprint.Proofs.Dependency.Custody
import Blueprint.Proofs.Lineage.Isolation
import Blueprint.Proofs.Compile.Rejections
import Blueprint.Proofs.Location.Recleaning
import Blueprint.Proofs.Location.Relative
import Blueprint.Proofs.Placeholder.Composition
import Blueprint.Proofs.Context.Publication
import Blueprint.Proofs.Dependency.Reachability
import Blueprint.Proofs.Dependency.Chronicle
import Blueprint.Proofs.Placeholder.Modes
import Blueprint.Proofs.Declaration.Unnamed
import Blueprint.Proofs.Compile.Numbering
import Blueprint.Proofs.Declaration.Registrable
import Blueprint.Proofs.Declaration.ConstructorArguments
import Blueprint.Proofs.Compile.Growth
import Blueprint.Proofs.Compile.Provenance
import Blueprint.Proofs.Lineage.AliasInverse
import Blueprint.Proofs.Lineage.KnownScopes
import Blueprint.Proofs.Definition.MatchedArguments
import Blueprint.Proofs.Lineage.Mentions
import Blueprint.Proofs.Location.Joining
