import EntityGen.Code.Equality
import EntityGen.Emit.OutputTree
import EntityGen.Proofs.Emit.Effects.Coding
import EntityGen.Proofs.Emit.Effects.Entities
import EntityGen.Proofs.Emit.Effects.Support
import EntityGen.Proofs.Document.Load
import EntityGen.Proofs.Emit.Sources
import EntityGen.Proofs.Emit.Effects
import EntityGen.Proofs.Emit.RecordField
import EntityGen.Proofs.Schema.Resolvable
import EntityGen.Proofs.Emit.Failures
import EntityGen.Proofs.Code.Declarations
import EntityGen.Proofs.Emit.Labels
import EntityGen.Proofs.Code.ReadBack
import EntityGen.Proofs.Code.Paths
import EntityGen.Proofs.Code.ThrowScan
import EntityGen.Proofs.Emit.ResponseHandler.Paths
import EntityGen.Proofs.Emit.ResponseHandler.Styles
import EntityGen.Proofs.Markup.OpenTags
import EntityGen.Proofs.Document.Truncation
import EntityGen.Proofs.Code.Throwing
import EntityGen.Proofs.Document.Definitions
import EntityGen.Proofs.Emit.Defaults
import EntityGen.Proofs.Emit.OutputTree
import EntityGen.Proofs.Emit.FileNames
import EntityGen.Proofs.Document.DefaultText
import EntityGen.Proofs.Document.Writing
import EntityGen.Proofs.Document.RoundTrip
import EntityGen.Proofs.Emit.Directories
import EntityGen.Proofs.Text.Conventions
import EntityGen.Proofs.Schema.UniqueNames
import EntityGen.Proofs.Emit.Clashes
import EntityGen.Proofs.Code.TypeNames
import EntityGen.Proofs.Emit.TypeMentions
import EntityGen.Proofs.Emit.PayloadTypes
import EntityGen.Proofs.Emit.Projections
import EntityGen.Proofs.Text.ByteOrder
import EntityGen.Proofs.Emit.Conversions
import EntityGen.Proofs.Emit.ResponseHandler.Wiring
import EntityGen.Proofs.Emit.DeclarationOrder
import EntityGen.Proofs.Text.Indentation
import EntityGen.Proofs.Code.LineText
import EntityGen.Proofs.Code.NestedText
import EntityGen.Proofs.Code.Nesting
import EntityGen.Proofs.Agreement
import EntityGen.Proofs.Markup.Tags
import EntityGen.Proofs.Markup.Correspondence
import EntityGen.Proofs.Markup.Malformed
import EntityGen.Proofs.Schema.MappedTexts
import EntityGen.Proofs.Document.Vocabulary
import EntityGen.Proofs.Document.AttributeSteps
import EntityGen.Proofs.Document.Correspondence
import EntityGen.Proofs.Document.AttributeOrder
import EntityGen.Proofs.Document.CarriedTexts
import EntityGen.Proofs.Document.References
import EntityGen.Proofs.Document.Sections
import EntityGen.Proofs.Document.MalformedAttributes
import EntityGen.Proofs.Emit.FileSet
import EntityGen.Proofs.Emit.DefaultTypes
import EntityGen.Proofs.Emit.WireKeys
import EntityGen.Proofs.Markup.Content
import EntityGen.Proofs.Markup.Padding
import EntityGen.Proofs.Document.Padding
import EntityGen.Proofs.Code.ThrowSites
import EntityGen.Proofs.Code.Running
import EntityGen.Proofs.Emit.RawValues
import EntityGen.Proofs.Emit.OptionBits
import EntityGen.Proofs.Emit.PayloadPlaces
import EntityGen.Proofs.Schema.Consistency
import EntityGen.Proofs.Code.UserText
import EntityGen.Proofs.Code.Brackets
import EntityGen.Proofs.Emit.KeywordNames
import EntityGen.Proofs.Document.WellFormed
import EntityGen.Proofs.Document.SectionOrder
import EntityGen.Proofs.Emit.ClientQueues
import EntityGen.Proofs.Emit.SampleNesting
import EntityGen.Proofs.Emit.MigrationTests
import EntityGen.Proofs.Emit.EntityGraph
import EntityGen.Proofs.Code.TypeText
import EntityGen.Proofs.Code.ClosureLayout
import EntityGen.Proofs.Schema.Catalog
import EntityGen.Proofs.Text.CaseLaws
