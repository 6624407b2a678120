import AnnotatedApi.Proofs.Run

/-!
# The schema nodes of a document

`Schema.HasNode` reaches every node of a schema, `Document.schemas` lists the
schemas that stand in a document.  In a compiled document each of them is one of
three things: the schema of a model, the schema of a type token, or the items of
an array parameter.
-/

set_option autoImplicit false

namespace AnnotatedApi

/-! ## Nodes of a schema -/

namespace Schema

/-- A node of a schema is the schema itself or a node of one of its parts. -/
inductive HasNode : Schema → Schema → Prop
  | root (schema : Schema) : HasNode schema schema
  | items {schema part node : Schema} (isPart : schema.items = some part)
      (below : HasNode part node) : HasNode schema node
  | additional {schema part node : Schema} (isPart : schema.additionalProperties = some part)
      (below : HasNode part node) : HasNode schema node
  | property {schema part node : Schema} {name : String} {properties : List (String × Schema)}
      (isPart : schema.properties = some properties) (among : (name, part) ∈ properties)
      (below : HasNode part node) : HasNode schema node

def Everywhere (P : Schema → Prop) (schema : Schema) : Prop := ∀ node, schema.HasNode node → P node

theorem everywhere_iff (P : Schema → Prop) (schema : Schema) :
    schema.Everywhere P ↔
      P schema ∧ (∀ part, schema.items = some part → part.Everywhere P) ∧
        (∀ part, schema.additionalProperties = some part → part.Everywhere P) ∧
        (∀ properties, schema.properties = some properties →
          ∀ property ∈ properties, property.2.Everywhere P) := by
  constructor
  · intro all
    refine ⟨all schema (.root schema), ?_, ?_, ?_⟩
    · exact fun part isPart node below => all node (.items isPart below)
    · exact fun part isPart node below => all node (.additional isPart below)
    · exact fun properties isPart property among node below =>
        all node (.property isPart among below)
  · rintro ⟨here, inItems, inAdditional, inProperties⟩ node reached
    cases reached with
    | root => exact here
    | items isPart below => exact inItems _ isPart node below
    | additional isPart below => exact inAdditional _ isPart node below
    | property isPart among below => exact inProperties _ isPart _ among node below

/-- The parts of a schema decide about all of it but its own node. -/
theorem everywhere_of_parts_eq {P : Schema → Prop} {schema other : Schema}
    (all : schema.Everywhere P) (here : P other) (items : other.items = schema.items)
    (additional : other.additionalProperties = schema.additionalProperties)
    (properties : other.properties = schema.properties) : other.Everywhere P := by
  rw [everywhere_iff] at all ⊢
  rw [items, additional, properties]
  exact ⟨here, all.2⟩

theorem everywhere_toModel {P : Schema → Prop} {model : String} (here : P (toModel model)) :
    (toModel model).Everywhere P :=
  (everywhere_iff P _).2 ⟨here, nofun, nofun, nofun⟩

theorem everywhere_ofType {P : Schema → Prop} {type : String} {format : Option String}
    (here : P (ofType type format)) : (ofType type format).Everywhere P :=
  (everywhere_iff P _).2 ⟨here, nofun, nofun, nofun⟩

theorem everywhere_arrayOf {P : Schema → Prop} {items : Schema} (here : P (arrayOf items))
    (below : items.Everywhere P) : (arrayOf items).Everywhere P := by
  refine (everywhere_iff P _).2 ⟨here, ?_, nofun, nofun⟩
  intro part isPart
  cases isPart
  exact below

theorem everywhere_elementType {P : Schema → Prop} (type : ElementType)
    (reference : ∀ model, type = .reference model → P (toModel model))
    (typed : ∀ name format, P (ofType name format))
    (map : ∀ values, P (ElementType.map values).schema) : type.schema.Everywhere P := by
  cases type with
  | primitive primitive => exact everywhere_ofType (typed _ _)
  | reference model => exact everywhere_toModel (reference model rfl)
  | map values =>
    refine (everywhere_iff P _).2 ⟨map values, nofun, ?_, nofun⟩
    intro part isPart
    cases isPart
    exact everywhere_ofType (typed _ _)

/-- What a node is and which parts it has, without its format and its hints. -/
def skeleton (node : Schema) : Schema where
  reference := node.reference
  type := node.type
  items := node.items
  additionalProperties := node.additionalProperties
  required := node.required
  properties := node.properties

theorem skeleton_eq_iff (node other : Schema) :
    node.skeleton = other.skeleton ↔
      node.reference = other.reference ∧ node.type = other.type ∧ node.items = other.items ∧
        node.additionalProperties = other.additionalProperties ∧
        node.required = other.required ∧ node.properties = other.properties := by
  simp [skeleton]

/-- Whether a node that refers to nothing has the property depends on its skeleton alone. -/
def Structural (P : Schema → Prop) : Prop :=
  ∀ node other : Schema, node.reference = none → other.skeleton = node.skeleton → P node → P other

theorem everywhere_of_skeleton_eq {P : Schema → Prop} (structural : Structural P)
    {schema other : Schema} (all : schema.Everywhere P) (plain : schema.reference = none)
    (same : other.skeleton = schema.skeleton) : other.Everywhere P := by
  have here := structural schema other plain same ((everywhere_iff P schema).1 all).1
  obtain ⟨-, -, items, additional, -, properties⟩ := (skeleton_eq_iff other schema).1 same
  exact everywhere_of_parts_eq all here items additional properties

end Schema

/-! ## Schemas of a document -/

def Parameter.schemas (parameter : Parameter) : List Schema :=
  parameter.schema.toList ++ parameter.items.toList

def Operation.schemas (operation : Operation) : List Schema :=
  operation.parameters.flatMap Parameter.schemas ++
    operation.responses.filterMap fun response => response.2.schema

def operationsOf (paths : KeyMap (KeyMap Operation)) : List Operation :=
  paths.flatMap fun path => path.2.map Prod.snd

namespace Document

def schemas (document : Document) : List Schema :=
  document.definitions.map Prod.snd ++ (operationsOf document.paths).flatMap Operation.schemas

def HasNode (document : Document) (node : Schema) : Prop :=
  ∃ schema ∈ document.schemas, schema.HasNode node

end Document

/-! ## What stands in a compiled document -/

inductive OfToken (known : KnownModels) : Schema → Prop
  | token (token : String) : OfToken known (known.typeOf token).schema
  | items {token : String} {items : ElementType} (literals : Option (List String))
      (isArray : known.typeOf token = .array items) (plain : ∀ model, items ≠ .reference model) :
      OfToken known (enumeratedItems items literals)

inductive Origin (known : KnownModels) : Schema → Prop
  | model (name : String) (fields : List DescribedField) (hinted : Bool) :
      Origin known (modelSchema name fields known hinted)
  | token {schema : Schema} (made : OfToken known schema) : Origin known schema

section Structural
variable {P : Schema → Prop} (structural : Schema.Structural P) {known : KnownModels}

include structural

theorem everywhere_field (field : DescribedField)
    (all : (known.typeOf field.type).schema.Everywhere P) : (field.schema known).Everywhere P := by
  rw [DescribedField.schema]
  cases type : known.typeOf field.type with
  | element element =>
    rw [type] at all
    cases element with
    | primitive primitive => exact Schema.everywhere_of_skeleton_eq structural all rfl rfl
    | map values => exact Schema.everywhere_of_skeleton_eq structural all rfl rfl
    | reference model => exact all
  | array items =>
    rw [type] at all
    cases items with
    | primitive primitive => exact Schema.everywhere_of_skeleton_eq structural all rfl rfl
    | map values => exact Schema.everywhere_of_skeleton_eq structural all rfl rfl
    | reference model => exact Schema.everywhere_of_skeleton_eq structural all rfl rfl

theorem everywhere_enumeratedItems {items : ElementType} (all : items.schema.Everywhere P)
    (plain : ∀ model, items ≠ .reference model) (literals : Option (List String)) :
    (enumeratedItems items literals).Everywhere P := by
  cases literals with
  | none => exact all
  | some literals =>
    cases items with
    | primitive primitive => exact Schema.everywhere_of_skeleton_eq structural all rfl rfl
    | map values => exact Schema.everywhere_of_skeleton_eq structural all rfl rfl
    | reference model => exact absurd rfl (plain model)

theorem OfToken.everywhere (tokens : ∀ token, (known.typeOf token).schema.Everywhere P)
    {schema : Schema} (made : OfToken known schema) : schema.Everywhere P := by
  cases made with
  | token token => exact tokens token
  | @items token items literals isArray plain =>
    have all := tokens token
    rw [isArray, Schema.everywhere_iff] at all
    exact everywhere_enumeratedItems structural (all.2.1 items.schema rfl) plain literals

theorem everywhere_of_mem_modelSchema (tokens : ∀ token, (known.typeOf token).schema.Everywhere P)
    {name : String} {fields : List DescribedField} {hinted : Bool}
    {properties : List (String × Schema)} {property : String × Schema}
    (isPart : (modelSchema name fields known hinted).properties = some properties)
    (among : property ∈ properties) : property.2.Everywhere P := by
  cases isPart
  obtain ⟨field, -, rfl⟩ := List.mem_map.1 (KeyMap.mem_of_mem_ofList among)
  exact everywhere_field structural field (tokens field.type)

/-- What holds of all nodes of type tokens and of the roots of models holds everywhere. -/
theorem Origin.everywhere (tokens : ∀ token, (known.typeOf token).schema.Everywhere P)
    (models : ∀ name fields hinted, P (modelSchema name fields known hinted)) {schema : Schema}
    (origin : Origin known schema) : schema.Everywhere P := by
  cases origin with
  | model name fields hinted =>
    refine (Schema.everywhere_iff P _).2 ⟨models name fields hinted, nofun, nofun, ?_⟩
    intro properties isPart property among
    exact everywhere_of_mem_modelSchema structural tokens isPart among
  | token made => exact made.everywhere structural tokens

end Structural

theorem ofToken_of_mem_withType {known : KnownModels} {parameter : Parameter} {schema : Schema}
    (token : String) (literals : Option (List String)) (untyped : parameter.schemas = [])
    (among : schema ∈ (parameter.withType (known.typeOf token) literals).schemas) :
    OfToken known schema := by
  have empty : parameter.schema = none ∧ parameter.items = none := by
    simpa [Parameter.schemas] using untyped
  have ofToken : OfToken known (known.typeOf token).schema := .token token
  cases type : known.typeOf token with
  | array items =>
    rw [type] at among ofToken
    cases items with
    | reference model =>
      have same : schema = Schema.arrayOf (Schema.toModel model) := by
        simpa [Parameter.withType, Parameter.schemas, empty] using among
      exact same ▸ ofToken
    | primitive primitive =>
      have same : schema = enumeratedItems (.primitive primitive) literals := by
        simpa [Parameter.withType, Parameter.schemas, empty] using among
      exact same ▸ .items literals type nofun
    | map values =>
      have same : schema = enumeratedItems (.map values) literals := by
        simpa [Parameter.withType, Parameter.schemas, empty] using among
      exact same ▸ .items literals type nofun
  | element element =>
    rw [type] at among ofToken
    cases element with
    | primitive primitive => simp [Parameter.withType, Parameter.schemas, empty] at among
    | map values =>
      have same : schema = (ElementType.map values).schema := by
        simpa [Parameter.withType, Parameter.schemas, empty] using among
      exact same ▸ ofToken
    | reference model =>
      have same : schema = (ElementType.reference model).schema := by
        simpa [Parameter.withType, Parameter.schemas, empty] using among
      exact same ▸ ofToken

theorem ofToken_of_mem_parameters {context : ParameterContext} {schema : Schema}
    (among : schema ∈ context.parameters.flatMap Parameter.schemas) :
    OfToken context.known schema := by
  obtain ⟨parameter, isParameter, among⟩ := List.mem_flatMap.1 among
  rw [ParameterContext.parameters, List.mem_append, List.mem_map, List.mem_map] at isParameter
  rcases isParameter with ⟨value, -, rfl⟩ | ⟨value, -, rfl⟩
  · exact ofToken_of_mem_withType _ _ rfl among
  · exact ofToken_of_mem_withType _ _ rfl among

theorem ofToken_of_mem_responses {tags : Tags} {known : KnownModels} {schema : Schema}
    (among : schema ∈ (responses tags known).filterMap fun response => response.2.schema) :
    OfToken known schema := by
  obtain ⟨⟨code, response⟩, isResponse, isSchema⟩ := List.mem_filterMap.1 among
  have written := KeyMap.mem_of_mem_ofList isResponse
  simp only [writtenResponses, List.mem_append, Option.mem_toList, Option.map_eq_some_iff,
    List.mem_filterMap, errorResponse?] at written
  rcases written with (⟨text, -, same⟩ | ⟨value, -, same⟩) | ⟨value, -, found, -, same⟩
  · cases same
    cases isSchema
  · cases same
    cases isSchema
    exact .token _
  · cases same
    cases isSchema

theorem ofToken_of_mem_place {context : ControllerContext} {procedure : Procedure}
    {comment : Comment} {schema : Schema}
    (among : schema ∈ (context.place procedure comment).operation.schemas) :
    OfToken context.known schema := by
  rw [Operation.schemas, List.mem_append] at among
  rcases among with among | among
  · exact ofToken_of_mem_parameters among
  · exact ofToken_of_mem_responses among

/-! ## Operations from the placed ones -/

theorem mem_operationsOf_iff (paths : KeyMap (KeyMap Operation)) (operation : Operation) :
    operation ∈ operationsOf paths ↔
      ∃ path methods, (path, methods) ∈ paths ∧ ∃ method, (method, operation) ∈ methods := by
  simp [operationsOf]

theorem mem_operationsOf_addOperation {paths : KeyMap (KeyMap Operation)}
    {placed : PlacedOperation} {operation : Operation}
    (among : operation ∈ operationsOf (addOperation paths placed)) :
    operation = placed.operation ∨ operation ∈ operationsOf paths := by
  obtain ⟨path, methods, isPath, method, isMethod⟩ := (mem_operationsOf_iff _ _).1 among
  rcases KeyMap.mem_insert isPath with same | isPath
  · cases same
    rcases KeyMap.mem_insert isMethod with same | isMethod
    · cases same
      exact Or.inl rfl
    · cases found : KeyMap.get? paths placed.path with
      | none => simp [found] at isMethod
      | some earlier =>
        rw [found] at isMethod
        exact Or.inr ((mem_operationsOf_iff _ _).2
          ⟨placed.path, earlier, KeyMap.mem_of_get?_eq_some found, method, isMethod⟩)
  · exact Or.inr ((mem_operationsOf_iff _ _).2 ⟨path, methods, isPath, method, isMethod⟩)

theorem mem_operationsOf_foldl {placed : List PlacedOperation}
    {paths : KeyMap (KeyMap Operation)} {operation : Operation}
    (among : operation ∈ operationsOf (placed.foldl addOperation paths)) :
    operation ∈ operationsOf paths ∨ ∃ one ∈ placed, operation = one.operation := by
  induction placed generalizing paths with
  | nil => exact Or.inl among
  | cons one rest ih =>
    rcases ih among with earlier | ⟨other, isOther, same⟩
    · rcases mem_operationsOf_addOperation earlier with same | earlier
      · exact Or.inr ⟨one, List.mem_cons_self, same⟩
      · exact Or.inl earlier
    · exact Or.inr ⟨other, List.mem_cons_of_mem _ isOther, same⟩

theorem mem_operationsOf_groupOperations {placed : List PlacedOperation} {operation : Operation}
    (among : operation ∈ operationsOf (groupOperations placed)) :
    ∃ one ∈ placed, operation = one.operation :=
  (mem_operationsOf_foldl among).resolve_left List.not_mem_nil

/-! ## Whole documents -/

namespace Document.Stages

variable {classes : String → Option AnnotatedClass} {settings : Settings}
  {controller : AnnotatedClass} {known : KnownModels} {definitions : List (String × Schema)}
  {placed : List PlacedOperation} {document : Document}

theorem origin_of_mem_definitions
    (stages : Stages classes settings controller known definitions placed document)
    {schema : Schema} (among : schema ∈ document.definitions.map Prod.snd) :
    Origin known schema := by
  obtain ⟨⟨name, _⟩, isDefinition, rfl⟩ := List.mem_map.1 among
  rw [stages.definitions_eq] at isDefinition
  rcases List.mem_cons.1 (KeyMap.mem_of_mem_ofList isDefinition) with same | isDefinition
  · rw [(Prod.mk.inj same).2]
    exact .model envelopeName envelopeFields false
  · obtain ⟨_, -, model, -, same⟩ := exists_defines_of_mem _ _ stages.forall₂_defines isDefinition
    rw [(Prod.mk.inj same).2]
    exact .model _ _ _

theorem ofToken_of_mem_operations
    (stages : Stages classes settings controller known definitions placed document)
    {schema : Schema} (among : schema ∈ (operationsOf document.paths).flatMap Operation.schemas) :
    OfToken known schema := by
  obtain ⟨operation, isOperation, among⟩ := List.mem_flatMap.1 among
  rw [stages.paths_eq] at isOperation
  obtain ⟨one, isPlaced, rfl⟩ := mem_operationsOf_groupOperations isOperation
  rw [ControllerContext.offered, List.mem_map] at isPlaced
  obtain ⟨procedure, -, rfl⟩ := isPlaced
  exact ofToken_of_mem_place among

theorem origin_of_mem_schemas
    (stages : Stages classes settings controller known definitions placed document)
    {schema : Schema} (among : schema ∈ document.schemas) : Origin known schema := by
  rw [Document.schemas, List.mem_append] at among
  rcases among with among | among
  · exact stages.origin_of_mem_definitions among
  · exact .token (stages.ofToken_of_mem_operations among)

end Document.Stages
end AnnotatedApi
