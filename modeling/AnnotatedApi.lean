import AnnotatedApi.Annotation.Operation
import AnnotatedApi.Annotation.Parameter
import AnnotatedApi.Class.Catalogue
import AnnotatedApi.Class.Manifest
import AnnotatedApi.CommandLine.Arguments
import AnnotatedApi.CommandLine.Manifests
import AnnotatedApi.CommandLine.Run
import AnnotatedApi.Comment.Basic
import AnnotatedApi.Comment.Gutter
import AnnotatedApi.Comment.Tags
import AnnotatedApi.Compilation.Basic
import AnnotatedApi.Data.Tree
import AnnotatedApi.Document.Basic
import AnnotatedApi.Document.Operation
import AnnotatedApi.Document.Parameter
import AnnotatedApi.Entries
import AnnotatedApi.FileTree.Basic
import AnnotatedApi.FileTree.Path
import AnnotatedApi.FileTree.Pattern
import AnnotatedApi.Json.Numeral
import AnnotatedApi.Json.Reader
import AnnotatedApi.Json.Value
import AnnotatedApi.Json.Writer
import AnnotatedApi.KeyMap
import AnnotatedApi.Main
import AnnotatedApi.Number.Binary64
import AnnotatedApi.Number.Shortest
import AnnotatedApi.Proofs.ArgumentOrder
import AnnotatedApi.Proofs.BlockOpeners
import AnnotatedApi.Proofs.Catalogue
import AnnotatedApi.Proofs.CommentShape
import AnnotatedApi.Proofs.ControllerComments
import AnnotatedApi.Proofs.DefinitionSets
import AnnotatedApi.Proofs.EnumeratedParameters
import AnnotatedApi.Proofs.Envelope
import AnnotatedApi.Proofs.ErrorResponses
import AnnotatedApi.Proofs.FileChanges
import AnnotatedApi.Proofs.Gutters
import AnnotatedApi.Proofs.LastValues
import AnnotatedApi.Proofs.Layouts
import AnnotatedApi.Proofs.LeftmostMatches
import AnnotatedApi.Proofs.LineEndings
import AnnotatedApi.Proofs.ManifestPaths
import AnnotatedApi.Proofs.MergedDocuments
import AnnotatedApi.Proofs.Merging
import AnnotatedApi.Proofs.ModelSchemas
import AnnotatedApi.Proofs.Outcome
import AnnotatedApi.Proofs.OwnProcedures
import AnnotatedApi.Proofs.ParameterKeys
import AnnotatedApi.Proofs.ParameterLists
import AnnotatedApi.Proofs.Paths
import AnnotatedApi.Proofs.PatternPieces
import AnnotatedApi.Proofs.Places
import AnnotatedApi.Proofs.ReadTags
import AnnotatedApi.Proofs.RecoveredTokens
import AnnotatedApi.Proofs.References
import AnnotatedApi.Proofs.ResponseTags
import AnnotatedApi.Proofs.Run
import AnnotatedApi.Proofs.SchemaNodes
import AnnotatedApi.Proofs.Searches
import AnnotatedApi.Proofs.Sections
import AnnotatedApi.Proofs.SecurityRequirements
import AnnotatedApi.Proofs.Spellings
import AnnotatedApi.Proofs.Stages
import AnnotatedApi.Proofs.StatusCodes
import AnnotatedApi.Proofs.TagOccurrences
import AnnotatedApi.Proofs.TokenRuns
import AnnotatedApi.Proofs.UnreadTags
import AnnotatedApi.Proofs.WellFormedNodes
import AnnotatedApi.Proofs.WholeRuns
import AnnotatedApi.Proofs.WrittenComments
import AnnotatedApi.Proofs.WrittenParameters
import AnnotatedApi.Schema.Basic
import AnnotatedApi.Schema.Model
import AnnotatedApi.Schema.TypeToken
import AnnotatedApi.Settings
import AnnotatedApi.Text.Basic
import AnnotatedApi.Text.Lowercase
import AnnotatedApi.Text.Token
import AnnotatedApi.Toml.Quoted
import AnnotatedApi.Toml.Reader
import AnnotatedApi.Toml.Scalar
import AnnotatedApi.Toml.Table
