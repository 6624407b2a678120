import AnnotatedApi.Document.Operation
import AnnotatedApi.Json.Writer

/-!
# Documents

The description of an application's interface: who offers it, where, which
operations it has and which models they speak of.  The members of the JSON form
stand in the order of the structures here; those that are not set are left out.

A document is written in one of two formats, chosen by name; both end in a line
feed.
-/

set_option autoImplicit false

namespace AnnotatedApi

structure License where
  name : String
  url : String
deriving DecidableEq, Repr

structure ExternalDocs where
  description : String
  url : String
deriving DecidableEq, Repr

structure Info where
  title : String
  description : String
  version : Option String
  termsOfService : Option String
  /-- The address of the contact. -/
  email : Option String
  license : Option License
deriving DecidableEq, Repr

structure DocumentTag where
  name : String
  description : String
  externalDocs : Option ExternalDocs
deriving DecidableEq, Repr

structure Document where
  version : String
  info : Info
  host : String
  basePath : String
  tags : List DocumentTag
  schemes : List String
  paths : KeyMap (KeyMap Operation)
  securityDefinitions : KeyMap Json.Value
  definitions : KeyMap Schema
  externalDocs : Option ExternalDocs

open Json

def License.toJson (license : License) : Value :=
  .object [("name", .string license.name), ("url", .string license.url)]

def ExternalDocs.toJson (docs : ExternalDocs) : Value :=
  .object [("description", .string docs.description), ("url", .string docs.url)]

def Info.toJson (info : Info) : Value :=
  .object (
    [("title", .string info.title), ("description", .string info.description)] ++
    Value.member? "version" (info.version.map .string) ++
    Value.member? "termsOfService" (info.termsOfService.map .string) ++
    Value.member? "contact" (info.email.map fun email => .object [("email", .string email)]) ++
    Value.member? "license" (info.license.map License.toJson))

def DocumentTag.toJson (tag : DocumentTag) : Value :=
  .object (
    [("name", .string tag.name), ("description", .string tag.description)] ++
    Value.member? "externalDocs" (tag.externalDocs.map ExternalDocs.toJson))

def Document.toJson (document : Document) : Value :=
  .object (
    [("swagger", .string document.version),
     ("info", document.info.toJson),
     ("host", .string document.host),
     ("basePath", .string document.basePath),
     ("tags", .array (document.tags.map DocumentTag.toJson)),
     ("schemes", Value.strings document.schemes),
     ("paths", KeyMap.toJson (KeyMap.toJson Operation.toJson) document.paths),
     ("securityDefinitions", .object document.securityDefinitions),
     ("definitions", KeyMap.toJson Schema.toJson document.definitions)] ++
    Value.member? "externalDocs" (document.externalDocs.map ExternalDocs.toJson))

/-! ## Formats -/

inductive Format where
  | json
  | compactJson
deriving DecidableEq, Repr

structure UnknownFormat where
  name : String
deriving DecidableEq, Repr

def UnknownFormat.message (unknown : UnknownFormat) : String :=
  "unknown format: " ++ unknown.name ++ ". Use json or json-compact"

namespace Format

def ofName (name : String) : Except UnknownFormat Format :=
  if name = "json" then .ok .json
  else if name = "json-compact" then .ok .compactJson
  else .error ⟨name⟩

def extension : Format → String
  | .json | .compactJson => "json"

def render (format : Format) (document : Document) : String :=
  match format with
  | .json => document.toJson.indented ++ "\n"
  | .compactJson => document.toJson.compact ++ "\n"

end Format
end AnnotatedApi
