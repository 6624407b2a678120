import AnnotatedApi.KeyMap
import AnnotatedApi.Schema.Basic
import AnnotatedApi.Text.Basic

/-!
# Type tokens

A type token is, the first that applies: an array of another token, one level
deep; a known model; a map whose values have a primitive type; or a
primitive type, with a format for the few names that have one.
-/

set_option autoImplicit false

namespace AnnotatedApi

open Text

structure PrimitiveType where
  type : String
  format : Option String
deriving DecidableEq, Repr

namespace PrimitiveType

/-- The primitive type that a token names; a name that is not in the table of
formats is a type of its own. -/
def ofToken (token : String) : PrimitiveType :=
  if token = "int32" ∨ token = "int64" then ⟨"integer", some token⟩
  else if token = "date-time" then ⟨"string", some token⟩
  else ⟨token, none⟩

def schema (primitive : PrimitiveType) : Schema := Schema.ofType primitive.type primitive.format

end PrimitiveType

/-- What an element token, one that is not an array, stands for. -/
inductive ElementType where
  | primitive (type : PrimitiveType)
  | map (values : PrimitiveType)
  | reference (model : String)
deriving DecidableEq, Repr

/-- What a token stands for; an array holds elements and never other arrays. -/
inductive ValueType where
  | element (type : ElementType)
  | array (items : ElementType)
deriving DecidableEq, Repr

def ElementType.schema : ElementType → Schema
  | .primitive type => type.schema
  | .map values => { type := some "object", additionalProperties := some values.schema }
  | .reference model => Schema.toModel model

def ValueType.schema : ValueType → Schema
  | .element type => type.schema
  | .array items => Schema.arrayOf items.schema

/-- The name of the response envelope that every document defines. -/
def envelopeName : String := "ApiResponse"

structure KnownModels where
  names : List String
deriving DecidableEq, Repr

namespace KnownModels

def ofNames (names : List String) : KnownModels := ⟨envelopeName :: names⟩

def add (known : KnownModels) (model : String) : KnownModels := ⟨known.names ++ [model]⟩

def contains (known : KnownModels) (token : String) : Bool := known.names.contains token

/-- What stands between the parentheses of a map token, which is all on one line. -/
def mapValues? (token : String) : Option String := do
  let inner ← stripFront? ['M', 'a', 'p', '('] token.toList
  let values ← stripBack? [')'] inner
  if values.contains '\n' then none else some (String.ofList values)

def arrayItems? (token : String) : Option String :=
  (stripBack? ['[', ']'] token.toList).map String.ofList

def elementType (known : KnownModels) (token : String) : ElementType :=
  if known.contains token then .reference token
  else match mapValues? token with
    | some values => .map (PrimitiveType.ofToken values)
    | none => .primitive (PrimitiveType.ofToken token)

def typeOf (known : KnownModels) (token : String) : ValueType :=
  match arrayItems? token with
  | some items => .array (known.elementType items)
  | none => .element (known.elementType token)

end KnownModels
end AnnotatedApi
