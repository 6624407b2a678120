import AnnotatedApi.Json.Value

/-!
# Schema nodes

A node describes a value: a model, a field, the items of an array or a body.
A reference to a definition stands alone; every other node has a type.
-/

set_option autoImplicit false

namespace AnnotatedApi

structure XmlHint where
  name : String
  wrapped : Option Bool := none
deriving DecidableEq, Repr

structure Schema where
  reference : Option String := none
  type : Option String := none
  format : Option String := none
  items : Option Schema := none
  additionalProperties : Option Schema := none
  required : Option (List String) := none
  properties : Option (List (String × Schema)) := none
  enumeration : Option (List String) := none
  default : Option Json.Value := none
  example? : Option String := none
  description : Option String := none
  xml : Option XmlHint := none

instance : Inhabited Schema := ⟨{}⟩

def definitionPlace (model : String) : String := "#/definitions/" ++ model

namespace Schema

def toModel (model : String) : Schema := { reference := some (definitionPlace model) }

def ofType (type : String) (format : Option String) : Schema := { type := some type, format := format }

def arrayOf (items : Schema) : Schema := { type := some "array", items := some items }

end Schema

open Json in
def XmlHint.toJson (hint : XmlHint) : Value :=
  .object (("name", .string hint.name) :: Value.member? "wrapped" (hint.wrapped.map .bool))

namespace Schema

open Json

mutual

def toJson : Schema → Value
  | ⟨reference, type, format, items, additional, required, properties, enumeration, default, shown,
      description, xml⟩ =>
    .object (
      Value.member? "$ref" (reference.map .string) ++
      Value.member? "type" (type.map .string) ++
      Value.member? "format" (format.map .string) ++
      Value.member? "items" (nodeJson? items) ++
      Value.member? "additionalProperties" (nodeJson? additional) ++
      Value.member? "required" (required.map Value.strings) ++
      Value.member? "properties" (propertiesJson? properties) ++
      Value.member? "enum" (enumeration.map Value.strings) ++
      Value.member? "default" default ++
      Value.member? "example" (shown.map .string) ++
      Value.member? "description" (description.map .string) ++
      Value.member? "xml" (xml.map XmlHint.toJson))

def nodeJson? : Option Schema → Option Value
  | none => none
  | some node => some node.toJson

def propertiesJson? : Option (List (String × Schema)) → Option Value
  | none => none
  | some properties => some (.object (propertiesJson properties))

def propertiesJson : List (String × Schema) → List (String × Value)
  | [] => []
  | (name, node) :: rest => (name, node.toJson) :: propertiesJson rest

end

end Schema
end AnnotatedApi
