import AnnotatedApi.Entries
import AnnotatedApi.Schema.Basic

/-!
# Parameters of an operation

A parameter is written as one flat object: its name and location, then its
constraints in the order of the annotations, then its other members.  What is
written later replaces what has the same key, in its place.  So a constraint
named like one of the other members takes the member's value, while one named
like the name or the location is written over it.
-/

set_option autoImplicit false

namespace AnnotatedApi

inductive Location where
  | path
  | query
  | header
  | formData
  | body
deriving DecidableEq, Repr

def Location.name : Location → String
  | .path => "path"
  | .query => "query"
  | .header => "header"
  | .formData => "formData"
  | .body => "body"

structure Parameter where
  name : String
  location : Location
  required : Bool
  /-- Keys and values of the constraints, every key once. -/
  constraints : Entries String := []
  description : Option String := none
  type : Option String := none
  format : Option String := none
  items : Option Schema := none
  collectionFormat : Option String := none
  schema : Option Schema := none

namespace Parameter

open Json

def leadingMembers (parameter : Parameter) : List (String × Value) :=
  [("name", .string parameter.name), ("in", .string parameter.location.name)]

/-- The members that are written after the constraints.  The nodes among them
have the keys of their objects ascending. -/
def trailingMembers (parameter : Parameter) : List (String × Value) :=
  Value.member? "description" (parameter.description.map .string) ++
  [("required", .bool parameter.required)] ++
  Value.member? "type" (parameter.type.map .string) ++
  Value.member? "format" (parameter.format.map .string) ++
  Value.member? "items" (parameter.items.map fun node => node.toJson.sortKeys) ++
  Value.member? "collectionFormat" (parameter.collectionFormat.map .string) ++
  Value.member? "schema" (parameter.schema.map fun node => node.toJson.sortKeys)

/-- The members in the order of the output; later ones replace earlier ones in place. -/
def entries (parameter : Parameter) : Entries Value :=
  Entries.setAll [] (parameter.leadingMembers ++
    parameter.constraints.map (fun pair => (pair.1, .string pair.2)) ++
    parameter.trailingMembers)

def toJson (parameter : Parameter) : Value := .object parameter.entries

end Parameter
end AnnotatedApi
