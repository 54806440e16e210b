import SwiftBindings.Files.Tree
import SwiftBindings.Main
import SwiftBindings.Proofs.Repetitions
import SwiftBindings.Proofs.Related
import SwiftBindings.Proofs.Reduction.IdentifierText
import SwiftBindings.Proofs.Schema.Endless
import SwiftBindings.Proofs.Swift.ReadBack
import SwiftBindings.Proofs.Swift.DistinctNames
import SwiftBindings.Proofs.Swift.GeneratedFile
import SwiftBindings.Proofs.TypeGraph.Clear
import SwiftBindings.Proofs.TypeGraph.Following
import SwiftBindings.Proofs.TypeGraph.FollowingNames
import SwiftBindings.Proofs.TypeGraph.FollowingRuns
import SwiftBindings.Proofs.TypeGraph.Inheritance
import SwiftBindings.Proofs.TypeGraph.OrderIndependence
import SwiftBindings.Proofs.Reduction.Origin
import SwiftBindings.Proofs.Reduction.OriginSteps
import SwiftBindings.Proofs.Reduction.OriginRuns
import SwiftBindings.Proofs.Reduction.TableNames
import SwiftBindings.Proofs.FrontEnds.Alternatives
import SwiftBindings.Proofs.FrontEnds.Builders
import SwiftBindings.Proofs.FrontEnds.Readings
import SwiftBindings.Proofs.FrontEnds.Agreement
import SwiftBindings.Proofs.TypeGraph.Mentions
import SwiftBindings.Proofs.TypeGraph.Renaming
import SwiftBindings.Proofs.TypeGraph.Lockstep
import SwiftBindings.Proofs.TypeGraph.LockstepRuns
import SwiftBindings.Proofs.TypeGraph.AliasRuns
import SwiftBindings.Proofs.Reduction.RenamedVisits
import SwiftBindings.Proofs.Reduction.Aliases
import SwiftBindings.Proofs.TypeGraph.Unbounded
import SwiftBindings.Proofs.TypeGraph.PropertyNames
import SwiftBindings.Proofs.Swift.WireKeys
import SwiftBindings.Proofs.TypeGraph.Substitution
import SwiftBindings.Proofs.TypeGraph.Structure
import SwiftBindings.Proofs.TypeGraph.Faithful
import SwiftBindings.Proofs.TypeGraph.SubstitutionRuns
import SwiftBindings.Proofs.TypeGraph.Acyclic
import SwiftBindings.Proofs.TypeGraph.DeclaredProperties
import SwiftBindings.Proofs.Reduction.DeclaredFields
import SwiftBindings.Proofs.TypeGraph.Parts
import SwiftBindings.Proofs.TypeGraph.Places
import SwiftBindings.Proofs.Api.Chains
import SwiftBindings.Proofs.Swift.Mentions
import SwiftBindings.Proofs.Api.References
import SwiftBindings.Proofs.Api.Filter
import SwiftBindings.Proofs.Api.FilterRuns
import SwiftBindings.Proofs.Api.FilteredRoots
import SwiftBindings.Proofs.Schema.UntypedValues
import SwiftBindings.Proofs.Json.Unambiguous
import SwiftBindings.Proofs.Schema.Dump
import SwiftBindings.Proofs.Reduction.Makeup
import SwiftBindings.Proofs.Reduction.Ancestors
import SwiftBindings.Proofs.Files.Writing
import SwiftBindings.Proofs.CommandLine.Outputs
import SwiftBindings.Proofs.TypeGraph.Reached
import SwiftBindings.Proofs.TypeGraph.FlatUnions
import SwiftBindings.Proofs.TypeGraph.Identity
import SwiftBindings.Proofs.TypeGraph.SameTypes
import SwiftBindings.Proofs.TypeGraph.PartOrder
import SwiftBindings.Proofs.Reduction.WidenedUnions
import SwiftBindings.Proofs.Reduction.RepeatedMembers
import SwiftBindings.Proofs.Schema.Spreads
import SwiftBindings.Proofs.Schema.Textless
import SwiftBindings.Proofs.Schema.Recipes
import SwiftBindings.Proofs.Schema.WellFormed
import SwiftBindings.Proofs.Schema.RegroupedUnions
import SwiftBindings.Proofs.Schema.Rewritten
import SwiftBindings.Proofs.Schema.Transparent
import SwiftBindings.Proofs.Swift.PlainNames
import SwiftBindings.Proofs.Swift.FreshNames
import SwiftBindings.Proofs.Swift.Origins
import SwiftBindings.Proofs.Swift.Arguments
import SwiftBindings.Proofs.Swift.Members
import SwiftBindings.Proofs.Swift.Identifiers
import SwiftBindings.Proofs.Swift.Literals
import SwiftBindings.Proofs.Swift.StructLines
import SwiftBindings.Proofs.Swift.PropertyLines
import SwiftBindings.Proofs.Swift.EmittedKeys
import SwiftBindings.Proofs.Swift.RenderedAgain
import SwiftBindings.Proofs.Swift.CodeLines
import SwiftBindings.Proofs.Swift.ContainedText
import SwiftBindings.Proofs.Swift.ContainedInput
import SwiftBindings.Proofs.Schema.UsageCounts
import SwiftBindings.Proofs.Api.Selections
import SwiftBindings.Proofs.Swift.EscapedText
import SwiftBindings.Proofs.Swift.TypeTexts
import SwiftBindings.Proofs.Script.KeptTexts
import SwiftBindings.Proofs.Schema.RetextedTerms
import SwiftBindings.Proofs.Script.ByteOrderMark
import SwiftBindings.Proofs.TypeGraph.ReadBack
import SwiftBindings.Proofs.Text.Positions
