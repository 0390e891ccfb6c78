import SchemaTypes.Command.Arguments
import SchemaTypes.Command.Invocation
import SchemaTypes.Command.Run
import SchemaTypes.Data.Entries
import SchemaTypes.Data.NameSet
import SchemaTypes.Decimal.Double
import SchemaTypes.Decimal.Shortest
import SchemaTypes.Document.Basic
import SchemaTypes.Document.Pointer
import SchemaTypes.Document.Reading
import SchemaTypes.Document.Schema
import SchemaTypes.Error
import SchemaTypes.Files.Exchange
import SchemaTypes.Files.Host
import SchemaTypes.Files.Path
import SchemaTypes.Files.Snapshot
import SchemaTypes.Json.Number
import SchemaTypes.Json.Reader
import SchemaTypes.Json.Tree
import SchemaTypes.Json.Value
import SchemaTypes.Main
import SchemaTypes.Module.Descriptor
import SchemaTypes.Module.Text
import SchemaTypes.Naming.Identifier
import SchemaTypes.Naming.NameTable
import SchemaTypes.Proofs.Document.Children
import SchemaTypes.Proofs.Resolve.Computation
import SchemaTypes.Proofs.Resolve.Shape
import SchemaTypes.Resolve.Declare
import SchemaTypes.Resolve.EnumTable
import SchemaTypes.Resolve.Inclusion
import SchemaTypes.Resolve.Pass
import SchemaTypes.Resolve.Prune
import SchemaTypes.Resolve.Resolver
import SchemaTypes.Resolve.SchemaTable
import SchemaTypes.Settings
import SchemaTypes.Source.Node
import SchemaTypes.Source.Reading
import SchemaTypes.Text.Blank
import SchemaTypes.Text.Digits
import SchemaTypes.Text.Quoted
import SchemaTypes.Text.Upper
import SchemaTypes.Text.Visible
import SchemaTypes.Types.Declaration
import SchemaTypes.Types.Expression
import SchemaTypes.Types.Manifest
import SchemaTypes.Yaml.BlockScalar
import SchemaTypes.Yaml.Cursor
import SchemaTypes.Yaml.FlowScalar
import SchemaTypes.Yaml.Layout
import SchemaTypes.Yaml.Lexer
import SchemaTypes.Yaml.Scalar
import SchemaTypes.Yaml.Source
import SchemaTypes.Yaml.Tag
import SchemaTypes.Yaml.Token
import SchemaTypes.Yaml.Tree
import SchemaTypes.Proofs.Data.Entries
import SchemaTypes.Proofs.Naming.NameTable
import SchemaTypes.Proofs.Resolve.EnumTable
import SchemaTypes.Proofs.Resolve.Agreement
import SchemaTypes.Proofs.Resolve.Merging
import SchemaTypes.Proofs.Resolve.State
import SchemaTypes.Proofs.Types.References
import SchemaTypes.Proofs.Resolve.Citation
import SchemaTypes.Proofs.Resolve.Declare
import SchemaTypes.Proofs.Resolve.Inclusion
import SchemaTypes.Proofs.Resolve.Prune
import SchemaTypes.Proofs.Resolve.SchemaTable
import SchemaTypes.Proofs.Resolve.Pass
import SchemaTypes.Proofs.Resolve.Assembly
import SchemaTypes.Proofs.Resolve.Chain
import SchemaTypes.Proofs.Text.Blank
import SchemaTypes.Proofs.Naming.Identifier
import SchemaTypes.Proofs.Naming.FieldName
import SchemaTypes.Proofs.Document.Pointer
import SchemaTypes.Proofs.Document.Descendants
import SchemaTypes.Proofs.Resolve.Origin
import SchemaTypes.Proofs.Resolve.Kinds
import SchemaTypes.Proofs.Resolve.Declared
import SchemaTypes.Proofs.Resolve.IncludedRecords
import SchemaTypes.Proofs.Resolve.RecordBodies
import SchemaTypes.Proofs.Document.Operations
import SchemaTypes.Proofs.Resolve.Nullability
import SchemaTypes.Proofs.Resolve.Redirect
import SchemaTypes.Proofs.Resolve.OperationRoots
import SchemaTypes.Proofs.Document.Rewriting
import SchemaTypes.Proofs.Resolve.Normalization
import SchemaTypes.Proofs.Resolve.Seeding
import SchemaTypes.Proofs.Resolve.Idempotence
import SchemaTypes.Proofs.Resolve.Effects
import SchemaTypes.Proofs.Resolve.Causes
import SchemaTypes.Proofs.Resolve.Reseeding
import SchemaTypes.Proofs.Resolve.Embedding
import SchemaTypes.Proofs.Resolve.Acceptance
import SchemaTypes.Proofs.Resolve.AcceptedDocuments
import SchemaTypes.Proofs.Resolve.CyclicChains
import SchemaTypes.Proofs.Resolve.DocumentOrder
import SchemaTypes.Proofs.Resolve.OwnEnums
import SchemaTypes.Proofs.Types.Relabeling
import SchemaTypes.Proofs.Resolve.Twins
import SchemaTypes.Proofs.Resolve.Simulation
import SchemaTypes.Proofs.Resolve.Repetition
import SchemaTypes.Proofs.Resolve.Independence
import SchemaTypes.Proofs.Resolve.FieldSpelling
import SchemaTypes.Proofs.Naming.FixedNames
import SchemaTypes.Proofs.Resolve.Retargeting
import SchemaTypes.Proofs.Resolve.Renormalization
import SchemaTypes.Proofs.Resolve.ExactPruning
import SchemaTypes.Proofs.Resolve.Contributions
import SchemaTypes.Proofs.Json.Quoted
import SchemaTypes.Proofs.Json.Spelling
import SchemaTypes.Proofs.Json.Reading
import SchemaTypes.Proofs.Types.Manifest
import SchemaTypes.Proofs.Types.Regrouping
import SchemaTypes.Proofs.Module.Descriptor
import SchemaTypes.Proofs.Resolve.EnumRequests
import SchemaTypes.Proofs.Resolve.EnumOrigin
import SchemaTypes.Proofs.Naming.MemberIdentifier
import SchemaTypes.Proofs.Resolve.LegalNames
import SchemaTypes.Proofs.Resolve.EnumMembers
import SchemaTypes.Proofs.Text.Lines
import SchemaTypes.Proofs.Module.Layout
import SchemaTypes.Proofs.Module.LineBreaks
import SchemaTypes.Proofs.Module.DocumentText
import SchemaTypes.Proofs.Module.InlineForm
import SchemaTypes.Proofs.Resolve.Alternatives
import SchemaTypes.Proofs.Resolve.Making
import SchemaTypes.Proofs.Resolve.Unions
import SchemaTypes.Proofs.Document.SchemaKey
import SchemaTypes.Proofs.Naming.Normalized
import SchemaTypes.Proofs.Naming.Calls
import SchemaTypes.Proofs.Resolve.PathStack
import SchemaTypes.Proofs.Document.Visits
import SchemaTypes.Proofs.Resolve.Inquiry
import SchemaTypes.Proofs.Resolve.Asking
import SchemaTypes.Proofs.Resolve.Lookups
