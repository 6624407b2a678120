import AnnotatedApi.Proofs.SchemaNodes

/-!
# Well-formed schema nodes

Every node of a compiled document either refers to a model and says nothing else, or has a
type that fits its parts.  Only the roots of definitions have properties and required ones.
-/

set_option autoImplicit false

namespace AnnotatedApi

/-! ## Forms of nodes -/

namespace Schema

structure WellFormed (node : Schema) : Prop where
  /-- Exactly one of the two is set. -/
  reference_or_type : node.reference.isSome = true ↔ node.type = none
  bare : ∀ place, node.reference = some place → node = { reference := some place }
  items : ∀ part, node.items = some part → node.type = some "array" ∧ part.items = none
  additional : ∀ part, node.additionalProperties = some part →
    node.type = some "object" ∧
      ∃ type format, part = { type := some type, format := format }

def Propertyless (node : Schema) : Prop := node.properties = none ∧ node.required = none

theorem structural_wellFormed : Structural WellFormed := by
  intro node other plain same formed
  obtain ⟨reference, type, items, additional, -, -⟩ := (skeleton_eq_iff other node).1 same
  constructor
  case reference_or_type =>
    rw [reference, type]
    exact formed.reference_or_type
  case bare =>
    intro place refers
    rw [reference, plain] at refers
    cases refers
  case items =>
    rw [items, type]
    exact formed.items
  case additional =>
    rw [additional, type]
    exact formed.additional

theorem structural_propertyless : Structural Propertyless := by
  intro node other _ same absent
  obtain ⟨-, -, -, -, required, properties⟩ := (skeleton_eq_iff other node).1 same
  exact ⟨properties.trans absent.1, required.trans absent.2⟩

theorem wellFormed_toModel (model : String) : (toModel model).WellFormed := by
  refine ⟨by simp [toModel], ?_, nofun, nofun⟩
  intro place refers
  cases refers
  rfl

theorem wellFormed_ofType (type : String) (format : Option String) :
    (ofType type format).WellFormed :=
  ⟨by simp [ofType], nofun, nofun, nofun⟩

theorem wellFormed_arrayOf {items : Schema} (flat : items.items = none) :
    (arrayOf items).WellFormed := by
  refine ⟨by simp [arrayOf], nofun, ?_, nofun⟩
  intro part isPart
  cases isPart
  exact ⟨rfl, flat⟩

theorem wellFormed_mapSchema (values : PrimitiveType) :
    (ElementType.map values).schema.WellFormed := by
  refine ⟨by simp [ElementType.schema], nofun, nofun, ?_⟩
  intro part isPart
  cases isPart
  exact ⟨rfl, values.type, values.format, rfl⟩

end Schema

theorem wellFormed_elementType (type : ElementType) :
    type.schema.Everywhere Schema.WellFormed :=
  Schema.everywhere_elementType type (fun model _ => Schema.wellFormed_toModel model)
    Schema.wellFormed_ofType Schema.wellFormed_mapSchema

theorem wellFormed_valueType (type : ValueType) : type.schema.Everywhere Schema.WellFormed := by
  cases type with
  | element type => exact wellFormed_elementType type
  | array items =>
    refine Schema.everywhere_arrayOf (Schema.wellFormed_arrayOf ?_) (wellFormed_elementType items)
    cases items <;> rfl

theorem propertyless_elementType (type : ElementType) :
    type.schema.Everywhere Schema.Propertyless :=
  Schema.everywhere_elementType type (fun _ _ => ⟨rfl, rfl⟩) (fun _ _ => ⟨rfl, rfl⟩)
    fun _ => ⟨rfl, rfl⟩

theorem propertyless_valueType (type : ValueType) :
    type.schema.Everywhere Schema.Propertyless := by
  cases type with
  | element type => exact propertyless_elementType type
  | array items => exact Schema.everywhere_arrayOf ⟨rfl, rfl⟩ (propertyless_elementType items)

theorem wellFormed_modelSchema (name : String) (fields : List DescribedField)
    (known : KnownModels) (hinted : Bool) : (modelSchema name fields known hinted).WellFormed :=
  ⟨by simp [modelSchema], nofun, nofun, nofun⟩

/-! ## Nodes below the roots of definitions -/

/-- `part` is a part of the schema itself, not of one of its parts. -/
inductive Schema.HasPart : Schema → Schema → Prop
  | items {schema part : Schema} (isPart : schema.items = some part) : HasPart schema part
  | additional {schema part : Schema} (isPart : schema.additionalProperties = some part) :
      HasPart schema part
  | property {schema part : Schema} {name : String} {properties : List (String × Schema)}
      (isPart : schema.properties = some properties) (among : (name, part) ∈ properties) :
      HasPart schema part

theorem Schema.hasNode_iff (schema node : Schema) :
    schema.HasNode node ↔ node = schema ∨ ∃ part, schema.HasPart part ∧ part.HasNode node := by
  constructor
  · intro reached
    cases reached with
    | root => exact Or.inl rfl
    | items isPart below => exact Or.inr ⟨_, .items isPart, below⟩
    | additional isPart below => exact Or.inr ⟨_, .additional isPart, below⟩
    | property isPart among below => exact Or.inr ⟨_, .property isPart among, below⟩
  · rintro (rfl | ⟨part, isPart, below⟩)
    · exact .root node
    · cases isPart with
      | items isPart => exact .items isPart below
      | additional isPart => exact .additional isPart below
      | property isPart among => exact .property isPart among below

theorem Schema.everywhere_part {P : Schema → Prop} {schema part : Schema}
    (all : schema.Everywhere P) (isPart : schema.HasPart part) : part.Everywhere P := by
  intro node below
  exact all node ((schema.hasNode_iff node).2 (Or.inr ⟨part, isPart, below⟩))

theorem Origin.propertyless_of_hasPart {known : KnownModels} {schema part : Schema}
    (origin : Origin known schema) (isPart : schema.HasPart part) :
    part.Everywhere Schema.Propertyless := by
  have tokens := fun token => propertyless_valueType (known.typeOf token)
  cases origin with
  | model name fields hinted =>
    cases isPart with
    | items isPart => cases isPart
    | additional isPart => cases isPart
    | property isPart among =>
      exact everywhere_of_mem_modelSchema Schema.structural_propertyless tokens isPart among
  | token made =>
    exact Schema.everywhere_part (made.everywhere Schema.structural_propertyless tokens) isPart

namespace Document

/-- The node stands in the document otherwise than as the root of a definition. -/
inductive HasInnerNode (document : Document) (node : Schema) : Prop
  | inDefinition {name : String} {root part : Schema} (defined : (name, root) ∈ document.definitions)
      (isPart : root.HasPart part) (below : part.HasNode node) : HasInnerNode document node
  | inOperation {operation : Operation} {schema : Schema}
      (offered : operation ∈ operationsOf document.paths) (among : schema ∈ operation.schemas)
      (below : schema.HasNode node) : HasInnerNode document node

theorem hasNode_iff (document : Document) (node : Schema) :
    document.HasNode node ↔
      (∃ name, (name, node) ∈ document.definitions) ∨ document.HasInnerNode node := by
  constructor
  · rintro ⟨schema, among, below⟩
    rw [Document.schemas, List.mem_append, List.mem_map, List.mem_flatMap] at among
    rcases among with ⟨⟨name, root⟩, defined, rfl⟩ | ⟨operation, offered, among⟩
    · rcases (Schema.hasNode_iff root node).1 below with rfl | ⟨part, isPart, below⟩
      · exact Or.inl ⟨name, defined⟩
      · exact Or.inr (.inDefinition defined isPart below)
    · exact Or.inr (.inOperation offered among below)
  · rintro (⟨name, defined⟩ | inner)
    · exact ⟨node, List.mem_append_left _ (List.mem_map_of_mem defined), .root node⟩
    · cases inner with
      | @inDefinition name root part defined isPart below =>
        refine ⟨root, List.mem_append_left _ (List.mem_map_of_mem defined), ?_⟩
        exact (Schema.hasNode_iff root node).2 (Or.inr ⟨part, isPart, below⟩)
      | @inOperation operation schema offered among below =>
        exact ⟨schema, List.mem_append_right _ (List.mem_flatMap.2 ⟨operation, offered, among⟩), below⟩

/-- Every node of a compiled document is well formed, and none but the roots of definitions
has properties. -/
theorem wellFormed_nodes {classes : String → Option AnnotatedClass} {settings : Settings}
    {document : Document} (compiled : compile classes settings = .ok document) :
    (∀ node, document.HasNode node → node.WellFormed) ∧
      (∀ node, document.HasNode node ↔
        (∃ name, (name, node) ∈ document.definitions) ∨ document.HasInnerNode node) ∧
      ∀ node, document.HasInnerNode node → node.properties = none ∧ node.required = none := by
  obtain ⟨controller, known, definitions, placed, stages⟩ :=
    (compile_eq_ok_iff _ _ _).1 compiled
  refine ⟨?_, document.hasNode_iff, ?_⟩
  · rintro node ⟨schema, among, below⟩
    have origin := stages.origin_of_mem_schemas among
    refine origin.everywhere Schema.structural_wellFormed ?_ ?_ node below
    · exact fun token => wellFormed_valueType (known.typeOf token)
    · exact fun name fields hinted => wellFormed_modelSchema name fields known hinted
  · intro node inner
    cases inner with
    | inDefinition defined isPart below =>
      have origin := stages.origin_of_mem_definitions (List.mem_map_of_mem defined)
      exact origin.propertyless_of_hasPart isPart node below
    | inOperation offered among below =>
      have made := stages.ofToken_of_mem_operations (List.mem_flatMap.2 ⟨_, offered, among⟩)
      refine made.everywhere Schema.structural_propertyless ?_ node below
      exact fun token => propertyless_valueType (known.typeOf token)

def marketClasses : List AnnotatedClass := [
  { name := "Market"
    comment := "Stalls\n@definition Stall"
    model := false
    procedures := [
      ⟨"actionGetPrices", "Market", ["kinds"],
        "@path /prices\n@method get\n@parameter string[] $kinds\n@return Map(int32)"⟩]
    fields := [] },
  { name := "Stall", comment := "", model := true, procedures := []
    fields := [
      ⟨"prices", "@var Map(int32)\n@required\n@enum low high", .null⟩,
      ⟨"neighbours", "@var Stall[]\n@required", .null⟩] }]

def marketClass? (name : String) : Option AnnotatedClass :=
  marketClasses.find? fun cls => cls.name = name

theorem wellFormed_nodes_market :
    ∃ document root prices, compile marketClass? { controller := "Market" } = .ok document ∧
      KeyMap.get? document.definitions "Stall" = some root ∧
      root.required = some ["prices", "neighbours"] ∧
      root.properties.map (fun properties => KeyMap.get? properties "prices") = some (some prices) ∧
      prices.additionalProperties.isSome = true ∧ prices.enumeration = some ["low", "high"] ∧
      root.WellFormed ∧ prices.WellFormed ∧ prices.required = none := by
  have returned : ∃ document root prices properties,
      compile marketClass? { controller := "Market" } = .ok document ∧
      KeyMap.get? document.definitions "Stall" = some root ∧
      root.required = some ["prices", "neighbours"] ∧
      root.properties = some properties ∧ KeyMap.get? properties "prices" = some prices ∧
      prices.additionalProperties.isSome = true ∧ prices.enumeration = some ["low", "high"] :=
    ⟨_, _, _, _, rfl, rfl, rfl, rfl, rfl, rfl, rfl⟩
  obtain ⟨document, root, prices, properties, compiled, defined, required, isPart, among, values,
    enumeration⟩ := returned
  have isRoot := KeyMap.mem_of_get?_eq_some defined
  have inner : document.HasInnerNode prices :=
    .inDefinition isRoot (.property isPart (KeyMap.mem_of_get?_eq_some among)) (.root prices)
  obtain ⟨formed, everywhere, propertyless⟩ := wellFormed_nodes compiled
  have formedRoot := formed root ((everywhere root).2 (Or.inl ⟨"Stall", isRoot⟩))
  have formedPrices := formed prices ((everywhere prices).2 (Or.inr inner))
  refine ⟨document, root, prices, compiled, defined, required, ?_, values, enumeration,
    formedRoot, formedPrices, (propertyless prices inner).2⟩
  rw [isPart, Option.map_some, among]

end Document
end AnnotatedApi
