import SwiftBindings.Main
import SwiftBindings.Module.Encode
import SwiftBindings.Proofs.Run.AlphaBuckets
import SwiftBindings.Proofs.Run.Unified
import SwiftBindings.Proofs.Run.LostTexts
import SwiftBindings.Proofs.Module.RoundTrip
import SwiftBindings.Proofs.Run.History
import SwiftBindings.Proofs.Registry.Lookup
import SwiftBindings.Proofs.Registry.WellFormed
import SwiftBindings.Proofs.Run.Knowledge
import SwiftBindings.Proofs.Filters.Hiding
import SwiftBindings.Proofs.Swift.Dependence
import SwiftBindings.Proofs.Swift.Lines
import SwiftBindings.Proofs.Filters.Namespaces
import SwiftBindings.Proofs.Swift.Skeletons
import SwiftBindings.Proofs.Run.HiddenDeclarations
import SwiftBindings.Proofs.Command.Prediction
import SwiftBindings.Proofs.Run.ReadBack
import SwiftBindings.Proofs.Run.OtherFiles
import SwiftBindings.Proofs.Run.FailingCategories
import SwiftBindings.Proofs.Run.NameReport
import SwiftBindings.Proofs.Run.RelativeNames
import SwiftBindings.Proofs.Command.Prerequisites
import SwiftBindings.Proofs.Command.MergedInputs
import SwiftBindings.Proofs.Layout.Partition
import SwiftBindings.Proofs.Filters.Parts
import SwiftBindings.Proofs.Swift.Literals
import SwiftBindings.Proofs.Swift.Indentation
import SwiftBindings.Proofs.Filters.NamespaceLines
import SwiftBindings.Proofs.Filters.SideFiles
import SwiftBindings.Proofs.Text.SharedNames
import SwiftBindings.Proofs.FileStore.Again
import SwiftBindings.Proofs.FileStore.Composition
import SwiftBindings.Proofs.Module.Edits
import SwiftBindings.Proofs.Module.SameReading
import SwiftBindings.Proofs.Toml.ReadEntries
import SwiftBindings.Proofs.Toml.Suffixes
import SwiftBindings.Proofs.Manifest.Labels
import SwiftBindings.Proofs.Run.Leftovers
