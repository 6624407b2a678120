import AnnotatedApi.Class.Catalogue
import AnnotatedApi.Comment.Tags
import AnnotatedApi.Document.Parameter
import AnnotatedApi.Schema.TypeToken
import AnnotatedApi.Text.Token

/-!
# Parameters from annotations

An annotation of a parameter says its type, its name and its description.
Enumerations and constraints of parameters are annotations of their own, which
name the parameter they are about.  Where a parameter travels follows from what
the operation consumes, from the path, from the method and from the signature.
-/

set_option autoImplicit false

namespace AnnotatedApi

open Text

def bareName (name : String) : String := String.ofList (name.toList.dropWhile (· == '$'))

def withoutDollars (name : String) : String := String.ofList (name.toList.filter (· != '$'))

def nonEmpty? (text : String) : Option String := if text.isEmpty then none else some text

theorem nonEmpty?_eq (text : String) : nonEmpty? text = if text = "" then none else some text := by
  by_cases empty : text = ""
  · rw [if_pos empty, empty]
    rfl
  · rw [nonEmpty?, if_neg empty, if_neg (by simpa using empty)]

/-! ## Enumerations and constraints -/

def enumeration? (value : String) : Option (String × List String) :=
  match tokens value with
  | [] => none
  | name :: literals => some (withoutDollars name, literals)

/-- The enumerations of a comment; of two under one name the later one counts. -/
def enumerations (tags : Tags) : KeyMap (List String) :=
  KeyMap.ofList ((tags.values "enum").filterMap enumeration?)

/-- The parameter that a constraint is about, and its key and value. -/
def constraint (value : String) : String × String × String :=
  let (key, name, value) := threeTokens value
  (bareName name, key, value)

def constraintsOf (tags : Tags) (name : String) : List (String × String) :=
  ((tags.values "constraint").map constraint).filterMap fun (owner, key, value) =>
    if owner = name then some (key, value) else none

/-! ## Types -/

def enumeratedItems (items : ElementType) (literals : Option (List String)) : Schema :=
  match literals with
  | none => items.schema
  | some literals =>
    { items.schema with
      default := some (.string (literals.headD ""))
      enumeration := some literals }

/-- The parameter with the members that say its type.  Only arrays of other
things than models are enumerated. -/
def Parameter.withType (parameter : Parameter) (type : ValueType)
    (literals : Option (List String)) : Parameter :=
  match type with
  | .array (.reference model) =>
    { parameter with schema := some (Schema.arrayOf (Schema.toModel model)) }
  | .array items =>
    { parameter with
      type := some "array"
      items := some (enumeratedItems items literals)
      collectionFormat := some "csv" }
  | .element (.primitive primitive) =>
    { parameter with type := some primitive.type, format := primitive.format }
  | .element other => { parameter with schema := some other.schema }

/-! ## Locations -/

namespace Location

def formTypes : List String := ["multipart/form-data", "application/x-www-form-urlencoded"]

def methodsWithBody : List String := ["put", "post"]

def isInPath (path name : String) : Bool :=
  occursIn ('\x7b' :: (name.toList ++ ['\x7d'])) path.toList

/-- The location of a parameter; `inSignature` tells whether the procedure takes it. -/
def ofParameter (name method consumes path : String) (inSignature : Bool) : Location :=
  if formTypes.contains consumes then
    if inSignature then .path else .formData
  else if isInPath path name then .path
  else if methodsWithBody.contains method then .body
  else if inSignature then .query
  else .header

end Location

/-! ## Parameters -/

structure ParameterContext where
  procedure : Procedure
  tags : Tags
  path : String
  method : String
  known : KnownModels

namespace ParameterContext

def locationOf (context : ParameterContext) (name : String) : Location :=
  let consumes := (context.tags.first? "consumes").getD ""
  Location.ofParameter name context.method consumes context.path (context.procedure.takes name)

def parameter (context : ParameterContext) (required : Bool) (value : String) : Parameter :=
  let (type, written, description) := threeTokens value
  let name := bareName written
  let untyped : Parameter :=
    { name, required
      location := context.locationOf name
      constraints := Entries.setAll [] (constraintsOf context.tags name)
      description := nonEmpty? description }
  untyped.withType (context.known.typeOf type) (KeyMap.get? (enumerations context.tags) name)

def parameters (context : ParameterContext) : List Parameter :=
  (context.tags.values "parameter").map (context.parameter true) ++
  (context.tags.values "optparameter").map (context.parameter false)

end ParameterContext
end AnnotatedApi
