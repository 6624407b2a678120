import AnnotatedApi.Proofs.TypeTokens
import Mathlib.Logic.Function.Basic

/-!
# Recovering type tokens

The type of a token is told by shapes that overlap as texts: a model may be called
`int32`, `Map(int32)` or `Pet[]`.  Still the token can be read off its type, and off the
node that the type has in a document, without knowing which models there are.
-/

set_option autoImplicit false

namespace AnnotatedApi

open Text

/-! ## Types as trees -/

/-- A type in which the items of an array may be of any type. -/
inductive TypeTree where
  | primitive (type : PrimitiveType)
  | map (values : PrimitiveType)
  | reference (model : String)
  | array (items : TypeTree)
deriving DecidableEq, Repr

def ElementType.tree : ElementType → TypeTree
  | .primitive type => .primitive type
  | .map values => .map values
  | .reference model => .reference model

def ValueType.tree : ValueType → TypeTree
  | .element type => type.tree
  | .array items => .array items.tree

theorem ElementType.tree_ne_array (type : ElementType) (items : TypeTree) :
    type.tree ≠ .array items := by
  cases type <;> simp [ElementType.tree]

theorem ElementType.tree_eq_reference_iff (type : ElementType) (model : String) :
    type.tree = .reference model ↔ type = .reference model := by
  cases type <;> simp [ElementType.tree]

theorem ValueType.tree_eq_reference_iff (type : ValueType) (model : String) :
    type.tree = .reference model ↔ type = .element (.reference model) := by
  cases type with
  | element type => simp [ValueType.tree, ElementType.tree_eq_reference_iff]
  | array items => simp [ValueType.tree]

theorem ValueType.tree_eq_array_reference_iff (type : ValueType) (model : String) :
    type.tree = .array (.reference model) ↔ type = .array (.reference model) := by
  cases type with
  | element type => simp [ValueType.tree, ElementType.tree_ne_array]
  | array items => simp [ValueType.tree, ElementType.tree_eq_reference_iff]

/-! ## Tokens of types and of nodes -/

/-- A format is a token of its own; a type without one is what the token says. -/
def PrimitiveType.token (primitive : PrimitiveType) : String := primitive.format.getD primitive.type

def mapToken (values : String) : String := "Map(" ++ values ++ ")"

def TypeTree.token : TypeTree → String
  | .primitive type => type.token
  | .map values => mapToken values.token
  | .reference model => model
  | .array items => items.token ++ "[]"

namespace Schema

def modelAt (place : String) : String :=
  String.ofList (place.toList.drop "#/definitions/".toList.length)

def primitiveToken (node : Schema) : String := node.format.getD (node.type.getD "")

def elementToken (node : Schema) : String :=
  match node.reference, node.additionalProperties with
  | some place, _ => modelAt place
  | none, some values => mapToken values.primitiveToken
  | none, none => node.primitiveToken

/-- The token that a node was made for, read off the node alone. -/
def token (node : Schema) : String :=
  match node.items with
  | some items => items.elementToken ++ "[]"
  | none => node.elementToken

theorem modelAt_definitionPlace (model : String) : modelAt (definitionPlace model) = model := by
  rw [modelAt, definitionPlace, String.toList_append, List.drop_left, String.ofList_toList]

end Schema

theorem PrimitiveType.primitiveToken_schema (primitive : PrimitiveType) :
    primitive.schema.primitiveToken = primitive.token := rfl

theorem ElementType.items_schema (type : ElementType) : type.schema.items = none := by
  cases type <;> rfl

theorem ElementType.elementToken_schema (type : ElementType) :
    type.schema.elementToken = type.tree.token := by
  cases type with
  | primitive type => exact type.primitiveToken_schema
  | map values => exact congrArg mapToken values.primitiveToken_schema
  | reference model => exact Schema.modelAt_definitionPlace model

/-- A node says no less than the type it shows. -/
theorem ValueType.token_schema (type : ValueType) : type.schema.token = type.tree.token := by
  cases type with
  | element type =>
    have noItems : (ValueType.element type).schema.items = none := type.items_schema
    rw [Schema.token, noItems]
    exact type.elementToken_schema
  | array items => exact congrArg (· ++ "[]") items.elementToken_schema

/-! ## What a token says is the token -/

theorem PrimitiveType.token_ofToken (token : String) : (PrimitiveType.ofToken token).token = token := by
  rw [PrimitiveType.ofToken]
  by_cases integer : token = "int32" ∨ token = "int64"
  · rw [if_pos integer]
    rfl
  · rw [if_neg integer]
    by_cases date : token = "date-time"
    · rw [if_pos date]
      rfl
    · rw [if_neg date]
      rfl

namespace KnownModels

theorem eq_mapToken_of_mapValues? {token values : String} (mapped : mapValues? token = some values) :
    token = mapToken values := by
  simp only [mapValues?, Option.bind_eq_bind, Option.bind_eq_some_iff] at mapped
  obtain ⟨inner, opened, stem, closed, unbroken⟩ := mapped
  have front : token.toList = ['M', 'a', 'p', '('] ++ inner :=
    (stripFront?_eq_some_iff _ _ _).1 opened
  have back : inner = stem ++ [')'] := (stripBack?_eq_some_iff _ _ _).1 closed
  split at unbroken
  · cases unbroken
  · cases unbroken
    rw [← String.toList_inj, front, back, mapToken]
    simp

variable (known : KnownModels)

theorem token_elementType (token : String) : (known.elementType token).tree.token = token := by
  rw [elementType]
  by_cases isKnown : known.contains token = true
  · rw [if_pos isKnown]
    rfl
  · rw [if_neg isKnown]
    cases mapped : mapValues? token with
    | none => exact PrimitiveType.token_ofToken token
    | some values =>
      calc mapToken (PrimitiveType.ofToken values).token
          = mapToken values := by rw [PrimitiveType.token_ofToken]
        _ = token := (eq_mapToken_of_mapValues? mapped).symm

theorem token_typeOf (token : String) : (known.typeOf token).tree.token = token := by
  rw [typeOf]
  cases marked : arrayItems? token with
  | none => exact known.token_elementType token
  | some items =>
    calc (known.elementType items).tree.token ++ "[]"
        = items ++ "[]" := by rw [known.token_elementType items]
      _ = token := ((arrayItems?_eq_some_iff token items).1 marked).symm

theorem token_schema_typeOf (token : String) : (known.typeOf token).schema.token = token := by
  rw [ValueType.token_schema, known.token_typeOf]

/-! ## Registered models -/

/-- What is known once the models are registered one after the other; before, the envelope is
the only one. -/
def registering (models : List String) : KnownModels :=
  models.foldl KnownModels.add (KnownModels.ofNames [])

theorem contains_add_iff (model name : String) :
    (known.add model).contains name = true ↔ known.contains name = true ∨ name = model := by
  simp [KnownModels.add, KnownModels.contains]

theorem contains_foldl_add_iff (models : List String) (name : String) :
    (models.foldl KnownModels.add known).contains name = true ↔
      known.contains name = true ∨ name ∈ models := by
  induction models generalizing known with
  | nil => simp
  | cons model rest ih =>
    rw [List.foldl_cons, ih, contains_add_iff, List.mem_cons]
    exact or_assoc

theorem contains_registering_iff (models : List String) (name : String) :
    (registering models).contains name = true ↔ name = envelopeName ∨ name ∈ models := by
  rw [registering, contains_foldl_add_iff, contains_ofNames_iff]
  simp

/-- Whatever models are registered, a token can be read off its type and off its node.  Arrays
are one level deep, and a type refers to a model only if the model is registered and the token
names it, with the array marker where the type is an array. -/
theorem typeOf_loses_nothing (models : List String) :
    (∀ token, ((registering models).typeOf token).tree.token = token ∧
        ((registering models).typeOf token).schema.token = token) ∧
      (Function.Injective fun token => ((registering models).typeOf token).tree) ∧
      (Function.Injective fun token => ((registering models).typeOf token).schema) ∧
      (∀ token inner, ((registering models).typeOf token).tree ≠ .array (.array inner)) ∧
      (∀ token model, ((registering models).typeOf token).tree = .reference model ↔
        (model = envelopeName ∨ model ∈ models) ∧ token = model ∧
          ¬ "[]".toList <:+ token.toList) ∧
      ∀ token model, ((registering models).typeOf token).tree = .array (.reference model) ↔
        (model = envelopeName ∨ model ∈ models) ∧ token = model ++ "[]" := by
  have fromTree : Function.LeftInverse TypeTree.token
      fun token => ((registering models).typeOf token).tree := (registering models).token_typeOf
  have fromSchema : Function.LeftInverse Schema.token
      fun token => ((registering models).typeOf token).schema :=
    (registering models).token_schema_typeOf
  refine ⟨fun token => ⟨fromTree token, fromSchema token⟩, fromTree.injective,
    fromSchema.injective, ?_, ?_, ?_⟩
  · intro token inner
    cases (registering models).typeOf token with
    | element type => exact type.tree_ne_array _
    | array items =>
      intro nested
      exact items.tree_ne_array inner (TypeTree.array.inj nested)
  · intro token model
    rw [ValueType.tree_eq_reference_iff, typeOf_eq_reference_iff, contains_registering_iff]
  · intro token model
    rw [ValueType.tree_eq_array_reference_iff, typeOf_eq_array_reference_iff,
      contains_registering_iff]

/-- Models whose names look like other tokens. -/
example :
    ["int32", "Map(int32)", "Map(int64)", "Pet[]", "Pet[][]"].map (fun token =>
        ((registering ["int32", "Map(int32)", "Pet[]"]).typeOf token).tree) =
      [.reference "int32", .reference "Map(int32)", .map ⟨"integer", some "int64"⟩,
        .array (.primitive ⟨"Pet", none⟩), .array (.reference "Pet[]")] := by
  decide

end KnownModels
end AnnotatedApi
