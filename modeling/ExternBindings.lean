import ExternBindings.Files.Access
import ExternBindings.Files.Path
import ExternBindings.Files.Volume
import ExternBindings.Listing.Construct
import ExternBindings.Listing.Declaration
import ExternBindings.Listing.Error
import ExternBindings.Listing.Grammar
import ExternBindings.Listing.Meaning
import ExternBindings.Listing.Name
import ExternBindings.Listing.Reading
import ExternBindings.Listing.Token
import ExternBindings.Listing.TypeUse
import ExternBindings.Metadata.Assembly
import ExternBindings.Metadata.Member
import ExternBindings.Metadata.Primitive
import ExternBindings.Metadata.QualifiedName
import ExternBindings.Metadata.TypeReference
import ExternBindings.Output.BindingFile
import ExternBindings.Output.Catalog
import ExternBindings.Output.Declaration
import ExternBindings.Output.Declaring
import ExternBindings.Output.FunctionGroup
import ExternBindings.Output.Signature
import ExternBindings.Output.TypeExpr
import ExternBindings.Package
import ExternBindings.Program.Arguments
import ExternBindings.Program.CommandLine
import ExternBindings.Program.HelpText
import ExternBindings.Program.Loading
import ExternBindings.Program.Run
import ExternBindings.Report
import ExternBindings.Sorting
import ExternBindings.Text.Blank
import ExternBindings.Text.CaseTables
import ExternBindings.Text.Lowercase
import ExternBindings.Text.Segments
import ExternBindings.World.Basic
import ExternBindings.World.FlatName
import ExternBindings.World.Hierarchy
import ExternBindings.World.Override
import ExternBindings.Main
import ExternBindings.Proofs.Listing.Answers
import ExternBindings.Proofs.Listing.Identifier
import ExternBindings.Proofs.Listing.Lexing
import ExternBindings.Proofs.Listing.WrittenName
import ExternBindings.Proofs.Listing.ReadType
import ExternBindings.Proofs.Listing.WrittenType
import ExternBindings.Proofs.Listing.RoundTrip
import ExternBindings.Proofs.Listing.WellFormed
import ExternBindings.Proofs.World.Nesting
import ExternBindings.Proofs.World.FlatName
import ExternBindings.Proofs.Output.Files
import ExternBindings.Proofs.Output.Identifiers
import ExternBindings.Proofs.Output.Paths
import ExternBindings.Proofs.Output.References
import ExternBindings.Proofs.Output.FlattenedNames
import ExternBindings.Proofs.Output.UniqueIdentifiers
import ExternBindings.Proofs.Output.FunctionForms
import ExternBindings.Proofs.World.Ancestry
import ExternBindings.Proofs.Output.Hiding
import ExternBindings.Proofs.Output.Overrides
import ExternBindings.Proofs.Output.Properties
import ExternBindings.Proofs.Metadata.TypeParameters
import ExternBindings.Proofs.Output.Scope
import ExternBindings.Proofs.World.Reachability
import ExternBindings.Proofs.Output.StaticNames
import ExternBindings.Proofs.Listing.Characters
import ExternBindings.Proofs.Listing.ReadAssembly
import ExternBindings.Proofs.Listing.Agreement
import ExternBindings.Proofs.Listing.Layout
import ExternBindings.Proofs.Output.Rearranged
import ExternBindings.Proofs.Output.Malformed
import ExternBindings.Proofs.Files.Following
import ExternBindings.Proofs.Files.Differing
import ExternBindings.Proofs.Program.Loading
import ExternBindings.Proofs.Program.Writing
import ExternBindings.Proofs.Program.Effect
import ExternBindings.Proofs.Program.SecondRun
import ExternBindings.Proofs.Listing.Mentioned
import ExternBindings.Proofs.Metadata.Roots
import ExternBindings.Proofs.Output.Unrelated
import ExternBindings.Proofs.World.Enclosing
import ExternBindings.Proofs.Output.Redeclared
import ExternBindings.Proofs.Output.FunctionTable
import ExternBindings.Proofs.Output.NamesAtSites
import ExternBindings.Proofs.Output.Interfaces
import ExternBindings.Proofs.World.Contracts
import ExternBindings.Proofs.Output.NormalForm
import ExternBindings.Proofs.Output.OverrideMarks
import ExternBindings.Proofs.Output.Retention
import ExternBindings.Proofs.World.AncestralLine
import ExternBindings.Proofs.World.FurtherInterface
import ExternBindings.Proofs.Output.Variants
import ExternBindings.Proofs.Output.Families
import ExternBindings.Proofs.Output.StandIns
import ExternBindings.Proofs.Output.Erasure
import ExternBindings.Proofs.Output.Spelling
import ExternBindings.Proofs.Output.EventArguments
import ExternBindings.Proofs.Output.Postorder
import ExternBindings.Proofs.Output.Blocks
import ExternBindings.Proofs.Listing.Accessors
import ExternBindings.Proofs.Listing.AccessorSlots
import ExternBindings.Proofs.Listing.Notes
import ExternBindings.Proofs.Listing.NoteScheme
import ExternBindings.Proofs.Listing.Stretch
import ExternBindings.Proofs.Listing.Portable
import ExternBindings.Proofs.Listing.Excerpt
import ExternBindings.Proofs.Listing.FirstFault
import ExternBindings.Proofs.Listing.StandAlone
import ExternBindings.Proofs.Listing.DeclaredReferences
import ExternBindings.Proofs.Listing.Ranks
import ExternBindings.Proofs.World.Modified
import ExternBindings.Proofs.Output.PropertyLines
import ExternBindings.Proofs.Output.ConstructorEntries
import ExternBindings.Proofs.World.Reordered
import ExternBindings.Proofs.Output.DeclarationOrder
import ExternBindings.Proofs.Listing.Heads
import ExternBindings.Proofs.Listing.Bodies
import ExternBindings.Proofs.Listing.SpanLists
import ExternBindings.Proofs.Listing.Declared
import ExternBindings.Proofs.Listing.Spans
import ExternBindings.Proofs.World.Resolution
import ExternBindings.Proofs.Output.ParameterNames
import ExternBindings.Proofs.Program.FreshDirectory
