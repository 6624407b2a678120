import AnnotatedApi.Document.Parameter
import AnnotatedApi.KeyMap

/-!
# Operations of a document

One operation for every path and method, with its parameters, its responses by
status code, and its security requirements.
-/

set_option autoImplicit false

namespace AnnotatedApi

structure Header where
  type : String
  format : Option String
  description : String
deriving DecidableEq, Repr

structure Response where
  description : Option String := none
  schema : Option Schema := none
  headers : Option (KeyMap Header) := none

/-- The names of permissions under the name of a security definition. -/
structure SecurityRequirement where
  scheme : String
  permissions : List String
deriving DecidableEq, Repr

structure Operation where
  tags : Option (List String)
  summary : String
  description : String
  operationId : String
  consumes : Option (List String)
  produces : Option (List String)
  parameters : List Parameter
  /-- By status code, or under `default`. -/
  responses : KeyMap Response
  security : Option (List SecurityRequirement)

def Response.ofDescription (description : String) : Response := { description := some description }

open Json

def KeyMap.toJson {α : Type} (write : α → Value) (map : KeyMap α) : Value :=
  .object (KeyMap.mapValues write map)

def Header.toJson (header : Header) : Value :=
  .object (("type", .string header.type) :: Value.member? "format" (header.format.map .string) ++
    [("description", .string header.description)])

def Response.toJson (response : Response) : Value :=
  .object (
    Value.member? "description" (response.description.map .string) ++
    Value.member? "schema" (response.schema.map Schema.toJson) ++
    Value.member? "headers" (response.headers.map (KeyMap.toJson Header.toJson)))

def SecurityRequirement.toJson (requirement : SecurityRequirement) : Value :=
  .object [(requirement.scheme, Value.strings requirement.permissions)]

def Operation.toJson (operation : Operation) : Value :=
  .object (
    Value.member? "tags" (operation.tags.map Value.strings) ++
    [("summary", .string operation.summary),
     ("description", .string operation.description),
     ("operationId", .string operation.operationId)] ++
    Value.member? "consumes" (operation.consumes.map Value.strings) ++
    Value.member? "produces" (operation.produces.map Value.strings) ++
    [("parameters", .array (operation.parameters.map Parameter.toJson)),
     ("responses", KeyMap.toJson Response.toJson operation.responses)] ++
    Value.member? "security" (operation.security.map fun requirements =>
      .array (requirements.map SecurityRequirement.toJson)))

end AnnotatedApi
