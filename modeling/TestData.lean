import TestData.Chain.Builder
import TestData.Settings.Discovery
import TestData.Strategy.Supplier
import TestData.Text.Pattern.Reader
import TestData.Value.Outline
import TestData.Proofs.Precedence
import TestData.Proofs.Course
import TestData.Proofs.Production
import TestData.Proofs.Serving
import TestData.Proofs.Memo
import TestData.Proofs.Acceptance
import TestData.Proofs.Termination.Graph
import TestData.Proofs.Termination.Walk
import TestData.Proofs.Termination.Arguments
import TestData.Proofs.Termination.Settling
import TestData.Proofs.Termination.Presets
import TestData.Proofs.Termination.Ending
import TestData.Proofs.Parameters
import TestData.Proofs.Sites
import TestData.Proofs.Depth
import TestData.Proofs.Composition
import TestData.Proofs.Lineage
import TestData.Proofs.Deepening
import TestData.Proofs.Transparency
import TestData.Proofs.Wildcards
import TestData.Proofs.Inheritance.Views
import TestData.Proofs.Inheritance.InTurn
import TestData.Proofs.Inheritance.Fitting
import TestData.Proofs.Inheritance.Family
import TestData.Proofs.Overriding
import TestData.Proofs.Operations
import TestData.Proofs.Integrity
import TestData.Proofs.Numbering
import TestData.Proofs.Selections
import TestData.Proofs.Separation.Renaming
import TestData.Proofs.Separation.Mirror
import TestData.Proofs.Separation.Choices
import TestData.Proofs.Separation.Serving
import TestData.Proofs.Separation.Worlds
import TestData.Proofs.Separation.ReadyMade
import TestData.Proofs.History.Recollection
import TestData.Proofs.History.Presets
import TestData.Proofs.Containers
import TestData.Proofs.Contract
import TestData.Proofs.Nullable
import TestData.Proofs.Sizes
import TestData.Proofs.NullFreedom
import TestData.Proofs.Construction
import TestData.Proofs.Inheritance.Assignability
import TestData.Proofs.Inheritance.Listing
import TestData.Proofs.Inheritance.DerivedFirst
import TestData.Proofs.Inheritance.StandIns
import TestData.Proofs.FieldInjection
import TestData.Proofs.Decorators
import TestData.Proofs.Elements
import TestData.Proofs.Inheritance.Unbound
import TestData.Proofs.Arrays
import TestData.Proofs.Registration
import TestData.Proofs.Options
import TestData.Proofs.UniqueMatch
import TestData.Proofs.Ancestors
import TestData.Proofs.Discovery
import TestData.Proofs.Chance
import TestData.Proofs.Inheritance.Grounded
