import AnnotatedApi.Class.Catalogue
import AnnotatedApi.Comment.Basic
import AnnotatedApi.Schema.TypeToken
import AnnotatedApi.Text.Token

/-!
# Schemas of models

The tags of a field's comment say what the field is; the schema of a model is
an object with one property for every field name.  A field whose type is a
model is a bare reference, whatever else its comment says.
-/

set_option autoImplicit false

namespace AnnotatedApi

open Text

structure DescribedField where
  name : String
  type : String
  description : String
  format : Option String
  example? : Option String
  required : Bool
  enumeration : Option (List String)
  /-- Null if no default is declared. -/
  default : Json.Value

namespace DescribedField

/-- Reads a field under the tags of its comment.  Of several enumerations the last one counts. -/
def ofTags (name : String) (default : Json.Value) (tags : Tags) : DescribedField :=
  let (type, description) := twoTokens ((tags.first? "var").getD "")
  { name, type, description, default
    format := tags.first? "format"
    example? := tags.first? "example"
    required := tags.contains "required"
    enumeration := (tags.values "enum").getLast?.map tokens }

def ofField (field : ModelField) : DescribedField :=
  ofTags field.name field.default (Comment.parse field.comment).tags

def withoutFinalS (name : String) : String :=
  match stripBack? ['s'] name.toList with
  | some stem => String.ofList stem
  | none => name

def description? (field : DescribedField) : Option String :=
  if field.description.isEmpty then none else some field.description

def default? (field : DescribedField) : Option Json.Value :=
  if field.default.isNull then none else some field.default

def annotate (field : DescribedField) (node : Schema) : Schema :=
  { node with
    format := field.format.orElse fun _ => node.format
    example? := field.example?
    description := field.description?
    default := field.default? }

def schema (field : DescribedField) (known : KnownModels) : Schema :=
  match known.typeOf field.type with
  | .element (.reference model) => Schema.toModel model
  | .element other => field.annotate { other.schema with enumeration := field.enumeration }
  | .array (.reference model) =>
    field.annotate { Schema.arrayOf (Schema.toModel model) with
      xml := some ⟨withoutFinalS field.name, some true⟩ }
  | .array other => field.annotate (Schema.arrayOf other.schema)

end DescribedField

/-- The schema of a model.  `hinted` adds the model's name in XML. -/
def modelSchema (name : String) (fields : List DescribedField) (known : KnownModels)
    (hinted : Bool) : Schema :=
  let required := (fields.filter (·.required)).map (·.name)
  { type := some "object"
    required := if required.isEmpty then none else some required
    properties := some (KeyMap.ofList (fields.map fun field => (field.name, field.schema known)))
    xml := if hinted then some ⟨name, none⟩ else none }

def envelopeFields : List DescribedField :=
  [("code", "@var int32"), ("type", "@var string"), ("message", "@var string")].map
    fun (name, comment) => DescribedField.ofField ⟨name, comment, .null⟩

end AnnotatedApi
