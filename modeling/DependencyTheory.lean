import DependencyTheory.Text.Quoted
import DependencyTheory.Substitution.Unification
import DependencyTheory.Homomorphism.Equivalence
import DependencyTheory.HeadSplit
import DependencyTheory.Session
import DependencyTheory.Main
import DependencyTheory.Proofs.Homomorphism.Attempt
import DependencyTheory.Proofs.OrderedSet
import DependencyTheory.Proofs.Substitution.Order
import DependencyTheory.Proofs.Substitution.Union
import DependencyTheory.Proofs.Substitution.MostGeneral
import DependencyTheory.Proofs.Homomorphism.Matching
import DependencyTheory.Proofs.Homomorphism.Choice
import DependencyTheory.Proofs.Homomorphism.FirstChoice
import DependencyTheory.Proofs.Semantics.Interpretation
import DependencyTheory.Proofs.Homomorphism.Agreement
import DependencyTheory.Proofs.Homomorphism.Soundness
import DependencyTheory.Proofs.Homomorphism.ByName
import DependencyTheory.Proofs.Homomorphism.Enumeration
import DependencyTheory.Proofs.Homomorphism.Conjunctive
import DependencyTheory.Proofs.Homomorphism.Nonrecursive
import DependencyTheory.Proofs.Homomorphism.Permutation
import DependencyTheory.Proofs.Semantics.Facts
import DependencyTheory.Proofs.FunctionalDependency.Shape
import DependencyTheory.Proofs.FunctionalDependency.Extraction
import DependencyTheory.Proofs.Schema.Build
import DependencyTheory.Proofs.HeadSplit.Groups
import DependencyTheory.Proofs.HeadSplit.Models
import DependencyTheory.Proofs.Conflict.Heads
import DependencyTheory.Proofs.Semantics.Firing
import DependencyTheory.Proofs.Conflict.Firing
import DependencyTheory.Proofs.FunctionalDependency.Maximal
import DependencyTheory.Proofs.Semantics.Chase
import DependencyTheory.Proofs.Conflict.Separation
import DependencyTheory.Proofs.Position.Affected
import DependencyTheory.Proofs.Position.Marking
import DependencyTheory.Proofs.Language.Verdicts
import DependencyTheory.Proofs.HeadSplit.Languages
import DependencyTheory.Proofs.Position.Invention
import DependencyTheory.Proofs.Position.Stickiness
import DependencyTheory.Proofs.Source.Layout
import DependencyTheory.Proofs.Source.Reads
import DependencyTheory.Proofs.Source.Tokens
import DependencyTheory.Proofs.Source.Program
import DependencyTheory.Proofs.Schema.Table
import DependencyTheory.Proofs.Schema.Integrity
import DependencyTheory.Proofs.Schema.Indexed
import DependencyTheory.Proofs.Session.History
import DependencyTheory.Proofs.Session.Workspace
import DependencyTheory.Proofs.Session.Provenance
import DependencyTheory.Proofs.Presentation.Verdicts
import DependencyTheory.Proofs.Source.Uses
import DependencyTheory.Proofs.Presentation.Copies
import DependencyTheory.Proofs.Source.Resolution
import DependencyTheory.Proofs.Source.Writing
import DependencyTheory.Proofs.Source.RoundTrip
import DependencyTheory.Proofs.Source.Acceptance
import DependencyTheory.Proofs.Source.Comments
import DependencyTheory.Proofs.Source.Concatenation
import DependencyTheory.Proofs.Source.ClauseRoundTrip
import DependencyTheory.Proofs.Substitution.Orientation
import DependencyTheory.Proofs.Language.Fixpoints
import DependencyTheory.Proofs.Language.Hierarchy
import DependencyTheory.Proofs.Language.Removal
import DependencyTheory.Proofs.Homomorphism.Errors
import DependencyTheory.Proofs.Homomorphism.Symmetry
import DependencyTheory.Proofs.Homomorphism.Composition
import DependencyTheory.Proofs.Homomorphism.Policies
import DependencyTheory.Proofs.Homomorphism.Renaming
import DependencyTheory.Proofs.Homomorphism.Memory
import DependencyTheory.Proofs.Homomorphism.Mirror
import DependencyTheory.Proofs.Homomorphism.Termination
import DependencyTheory.Proofs.Substitution.Permutation
import DependencyTheory.Proofs.FunctionalDependency.Distribution
import DependencyTheory.Proofs.HeadSplit.Components
import DependencyTheory.Proofs.HeadSplit.Search
import DependencyTheory.Proofs.HeadSplit.Parts
import DependencyTheory.Proofs.Homomorphism.Growth
import DependencyTheory.Proofs.Homomorphism.HeadLiteral
