import AnnotatedApi.Proofs.LastValues
import AnnotatedApi.Proofs.ParameterLists
import AnnotatedApi.Proofs.SchemaNodes
import AnnotatedApi.Proofs.TypeTokens
import AnnotatedApi.Schema.Model

/-!
# The schema of a model

Every field of a model gives one node, and of the fields with one name the last one gives
the property.  `Gives` tells member by member what the node of a field is, from the tags of
its comment and its default; the schema of the model is the object of these nodes.
-/

set_option autoImplicit false

namespace AnnotatedApi

open Text Entries

/-! ## Type tokens without a model -/

def tabledFormat? (token : String) : Option String :=
  if token ∈ ["int32", "int64", "date-time"] then some token else none

theorem format_ofToken (token : String) :
    (PrimitiveType.ofToken token).format = tabledFormat? token := by
  rw [PrimitiveType.ofToken, tabledFormat?]
  by_cases integer : token = "int32" ∨ token = "int64"
  · rcases integer with rfl | rfl <;> simp
  · by_cases date : token = "date-time"
    · simp [date]
    · simp [date, not_or.1 integer]

theorem tabledFormat?_eq_none {token : String}
    (shaped : KnownModels.arrayItems? token ≠ none ∨ KnownModels.mapValues? token ≠ none) :
    tabledFormat? token = none := by
  rw [tabledFormat?, if_neg]
  intro tabled
  have plain : KnownModels.arrayItems? token = none ∧ KnownModels.mapValues? token = none := by
    simp only [List.mem_cons, List.not_mem_nil, or_false] at tabled
    rcases tabled with rfl | rfl | rfl <;> decide
  rcases shaped with array | map
  · exact array plain.1
  · exact map plain.2

namespace KnownModels
variable (known : KnownModels)

theorem format_typeOf {token : String}
    (other : ∀ model, known.typeOf token ≠ .element (.reference model)) :
    (known.typeOf token).schema.format = tabledFormat? token := by
  rw [typeOf] at other ⊢
  cases array : arrayItems? token with
  | some items => exact (tabledFormat?_eq_none (Or.inl (by simp [array]))).symm
  | none =>
    rw [array] at other
    have notKnown : ¬ known.contains token = true := by
      intro isKnown
      exact other token (by simp [elementType, isKnown])
    dsimp only
    rw [elementType, if_neg notKnown]
    cases map : mapValues? token with
    | some values => exact (tabledFormat?_eq_none (Or.inr (by simp [map]))).symm
    | none => exact format_ofToken token

end KnownModels

/-! ## What a field gives -/

def IsSingular (name stem : String) : Prop :=
  name = stem ++ "s" ∨ ¬ "s".toList <:+ name.toList ∧ stem = name

theorem isSingular_iff (name stem : String) :
    IsSingular name stem ↔ DescribedField.withoutFinalS name = stem := by
  have final : "s".toList = ['s'] := rfl
  rw [IsSingular, DescribedField.withoutFinalS]
  cases found : stripBack? ['s'] name.toList with
  | none =>
    have kept := (stripBack?_eq_none_iff _ _).1 found
    constructor
    · rintro (ended | ⟨-, same⟩)
      · refine absurd ⟨stem.toList, ?_⟩ kept
        rw [ended, String.toList_append, final]
      · exact same.symm
    · intro same
      exact Or.inr ⟨kept, same.symm⟩
  | some front =>
    have split := (stripBack?_eq_some_iff _ _ _).1 found
    have ended : "s".toList <:+ name.toList := ⟨front, split.symm⟩
    have whole : name = String.ofList front ++ "s" := by
      rw [← String.toList_inj, split, String.toList_append, String.toList_ofList, final]
    constructor
    · rintro (same | ⟨notEnded, -⟩)
      · exact (String.append_left_inj "s").1 (whole.symm.trans same)
      · exact absurd ended notEnded
    · rintro rfl
      exact Or.inl whole

namespace ModelField

def tags (field : ModelField) : Tags := (Comment.parse field.comment).tags

/-- The value of the first type tag is the token and, behind white space, the description. -/
def IsTyped (field : ModelField) (token description : String) : Prop :=
  ∃ gap, IsSplit ((Tags.values field.tags "var").headD "").toList token.toList gap
    description.toList

/-- What the node tells of a field whose token names no model. -/
structure Tells (field : ModelField) (known : KnownModels) (token description : String)
    (node : Schema) : Prop where
  type : node.skeleton = (known.typeOf token).schema.skeleton
  format : node.format = (Tags.first? field.tags "format").or (tabledFormat? token)
  example? : node.example? = Tags.first? field.tags "example"
  description : node.description = if description = "" then none else some description
  default : field.default ≠ .null → node.default = some field.default
  noDefault : field.default = .null → node.default = none
  enumeration : ¬ "[]".toList <:+ token.toList →
    node.enumeration = (Tags.values field.tags "enum").getLast?.map tokens
  noEnumeration : "[]".toList <:+ token.toList → node.enumeration = none
  xml : ∀ model, known.contains model = true → token = model ++ "[]" →
    ∃ stem, IsSingular field.name stem ∧ node.xml = some ⟨stem, some true⟩
  noXml : (∀ model, known.contains model = true → token ≠ model ++ "[]") → node.xml = none

/-- The node of a field.  A token that ends in the array marker is an array, also if it is
the name of a model. -/
inductive Gives (field : ModelField) (known : KnownModels) : Schema → Prop
  | reference {model description : String} (typed : field.IsTyped model description)
      (isKnown : known.contains model = true) (single : ¬ "[]".toList <:+ model.toList) :
      Gives field known (Schema.toModel model)
  | other {token description : String} {node : Schema} (typed : field.IsTyped token description)
      (noModel : known.contains token = true → "[]".toList <:+ token.toList)
      (told : field.Tells known token description node) : Gives field known node

section Nodes
variable (field : ModelField) (known : KnownModels)

/-- What a field is read as: its first type tag, the other tags, and its default. -/
theorem ofField_eq :
    DescribedField.ofField field =
      { name := field.name
        type := (twoTokens ((Tags.values field.tags "var").headD "")).1
        description := (twoTokens ((Tags.values field.tags "var").headD "")).2
        format := Tags.first? field.tags "format"
        example? := Tags.first? field.tags "example"
        required := Tags.contains field.tags "required"
        enumeration := (Tags.values field.tags "enum").getLast?.map tokens
        default := field.default } := by
  rw [DescribedField.ofField, DescribedField.ofTags, Tags.first?_getD, tags]

theorem isTyped_iff (token description : String) :
    field.IsTyped token description ↔
      (DescribedField.ofField field).type = token ∧
        (DescribedField.ofField field).description = description := by
  rw [IsTyped, isSplit_iff, ofField_eq, ← String.toList_inj, ← String.toList_inj]
  simp only [twoTokens, String.toList_ofList]

end Nodes

theorem Tells.unique {field : ModelField} {known : KnownModels} {token description : String}
    {node node' : Schema} (told : field.Tells known token description node)
    (told' : field.Tells known token description node') : node = node' := by
  have skeleton := told.type.trans told'.type.symm
  obtain ⟨reference, type, items, additional, required, properties⟩ :=
    (Schema.skeleton_eq_iff node node').1 skeleton
  have format := told.format.trans told'.format.symm
  have shown := told.example?.trans told'.example?.symm
  have text := told.description.trans told'.description.symm
  have default : node.default = node'.default := by
    by_cases null : field.default = .null
    · rw [told.noDefault null, told'.noDefault null]
    · rw [told.default null, told'.default null]
  have enumeration : node.enumeration = node'.enumeration := by
    by_cases array : "[]".toList <:+ token.toList
    · rw [told.noEnumeration array, told'.noEnumeration array]
    · rw [told.enumeration array, told'.enumeration array]
  have xml : node.xml = node'.xml := by
    by_cases models : ∃ model, known.contains model = true ∧ token = model ++ "[]"
    · obtain ⟨model, isKnown, array⟩ := models
      obtain ⟨stem, singular, hint⟩ := told.xml model isKnown array
      obtain ⟨stem', singular', hint'⟩ := told'.xml model isKnown array
      rw [isSingular_iff] at singular singular'
      rw [hint, hint', ← singular, ← singular']
    · have none : ∀ model, known.contains model = true → token ≠ model ++ "[]" :=
        fun model isKnown array => models ⟨model, isKnown, array⟩
      rw [told.noXml none, told'.noXml none]
  cases node
  cases node'
  simp only [Schema.mk.injEq]
  exact ⟨reference, type, format, items, additional, required, properties, enumeration, default,
    shown, text, xml⟩

/-! ### Annotated nodes -/

theorem isNull_iff (value : Json.Value) : value.isNull = true ↔ value = .null := by
  cases value <;> simp [Json.Value.isNull]

section Annotated
variable {field : ModelField} {known : KnownModels} {token description : String}

theorem unmarked_of_element {type : ElementType} (single : known.typeOf token = .element type) :
    ¬ "[]".toList <:+ token.toList := by
  rw [← KnownModels.arrayItems?_eq_none_iff]
  rw [KnownModels.typeOf] at single
  cases found : KnownModels.arrayItems? token with
  | none => rfl
  | some items =>
    rw [found] at single
    cases single

theorem marked_of_array {items : ElementType} (array : known.typeOf token = .array items) :
    "[]".toList <:+ token.toList := by
  by_contra unmarked
  rw [KnownModels.typeOf, (KnownModels.arrayItems?_eq_none_iff token).2 unmarked] at array
  cases array

/-- An annotation adds what the comment says, and leaves the rest of the node as it is. -/
theorem tells_annotate (typed : field.IsTyped token description) {node : Schema}
    (type : node.skeleton = (known.typeOf token).schema.skeleton)
    (format : node.format = tabledFormat? token)
    (enumeration : ¬ "[]".toList <:+ token.toList →
      node.enumeration = (Tags.values field.tags "enum").getLast?.map tokens)
    (noEnumeration : "[]".toList <:+ token.toList → node.enumeration = none)
    (xml : ∀ model, known.contains model = true → token = model ++ "[]" →
      ∃ stem, IsSingular field.name stem ∧ node.xml = some ⟨stem, some true⟩)
    (noXml : (∀ model, known.contains model = true → token ≠ model ++ "[]") → node.xml = none) :
    field.Tells known token description ((DescribedField.ofField field).annotate node) := by
  obtain ⟨-, isDescription⟩ := (field.isTyped_iff token description).1 typed
  constructor
  case type => exact type
  case format =>
    rw [ofField_eq, ← format]
    cases Tags.first? field.tags "format" <;> rfl
  case example? => rw [ofField_eq, DescribedField.annotate]
  case description =>
    rw [← isDescription, DescribedField.annotate, DescribedField.description?]
    simp
  case default =>
    intro declared
    have present : ¬ field.default.isNull = true := fun null => declared ((isNull_iff _).1 null)
    rw [ofField_eq, DescribedField.annotate, DescribedField.default?]
    exact if_neg present
  case noDefault =>
    intro null
    rw [ofField_eq, DescribedField.annotate, DescribedField.default?]
    exact if_pos ((isNull_iff _).2 null)
  case enumeration => exact enumeration
  case noEnumeration => exact noEnumeration
  case xml => exact xml
  case noXml => exact noXml

theorem tells_of_element (typed : field.IsTyped token description) {type : ElementType}
    (single : known.typeOf token = .element type)
    (format : type.schema.format = tabledFormat? token) :
    field.Tells known token description
      ((DescribedField.ofField field).annotate
        { type.schema with enumeration := (DescribedField.ofField field).enumeration }) := by
  have unmarked := unmarked_of_element single
  apply tells_annotate typed
  case type =>
    rw [single]
    rfl
  case format => exact format
  case enumeration =>
    intro _
    rw [ofField_eq]
  case noEnumeration =>
    intro marked
    exact absurd marked unmarked
  case xml =>
    intro model isKnown ofModels
    have models := (known.typeOf_eq_array_reference_iff token model).2 ⟨isKnown, ofModels⟩
    rw [single] at models
    cases models
  case noXml =>
    intro _
    cases type <;> rfl

theorem tells_of_array (typed : field.IsTyped token description) {items : ElementType}
    (array : known.typeOf token = .array items) (plain : ∀ model, items ≠ .reference model) :
    field.Tells known token description
      ((DescribedField.ofField field).annotate (Schema.arrayOf items.schema)) := by
  have marked := marked_of_array array
  have notModel : ∀ model, known.typeOf token ≠ .element (.reference model) := by simp [array]
  have format := known.format_typeOf notModel
  apply tells_annotate typed
  case type => rw [array, ValueType.schema]
  case format => rw [← format, array, ValueType.schema]
  case enumeration =>
    intro unmarked
    exact absurd marked unmarked
  case noEnumeration => exact fun _ => rfl
  case xml =>
    intro model isKnown ofModels
    have models := (known.typeOf_eq_array_reference_iff token model).2 ⟨isKnown, ofModels⟩
    rw [array, ValueType.array.injEq] at models
    exact absurd models (plain model)
  case noXml => exact fun _ => rfl

theorem tells_of_models (typed : field.IsTyped token description) {model : String}
    (array : known.typeOf token = .array (.reference model)) :
    field.Tells known token description
      ((DescribedField.ofField field).annotate
        { Schema.arrayOf (Schema.toModel model) with
          xml := some ⟨DescribedField.withoutFinalS (DescribedField.ofField field).name,
            some true⟩ }) := by
  obtain ⟨isKnown, ofModels⟩ := (known.typeOf_eq_array_reference_iff token model).1 array
  have notModel : ∀ model, known.typeOf token ≠ .element (.reference model) := by simp [array]
  have format := known.format_typeOf notModel
  apply tells_annotate typed
  case type =>
    rw [array]
    rfl
  case format => rw [← format, array, ValueType.schema, ElementType.schema]
  case enumeration =>
    intro unmarked
    exact absurd (marked_of_array array) unmarked
  case noEnumeration => exact fun _ => rfl
  case xml =>
    intro _ _ _
    rw [ofField_eq]
    exact ⟨_, (isSingular_iff _ _).2 rfl, rfl⟩
  case noXml =>
    intro none
    exact absurd ofModels (none model isKnown)

theorem tells_schema (typed : field.IsTyped token description)
    (other : ∀ model, known.typeOf token ≠ .element (.reference model)) :
    field.Tells known token description ((DescribedField.ofField field).schema known) := by
  have format := known.format_typeOf other
  have isToken := ((field.isTyped_iff token description).1 typed).1
  rw [DescribedField.schema, isToken]
  cases type : known.typeOf token with
  | element element =>
    rw [type] at format
    cases element with
    | reference model => exact absurd type (other model)
    | primitive primitive => exact tells_of_element typed type format
    | map values => exact tells_of_element typed type format
  | array items =>
    cases items with
    | reference model => exact tells_of_models typed type
    | primitive primitive => exact tells_of_array typed type (by simp)
    | map values => exact tells_of_array typed type (by simp)

end Annotated

section Nodes
variable (field : ModelField) (known : KnownModels)

theorem gives_schema : field.Gives known ((DescribedField.ofField field).schema known) := by
  have typed : field.IsTyped (DescribedField.ofField field).type
      (DescribedField.ofField field).description := (field.isTyped_iff _ _).2 ⟨rfl, rfl⟩
  generalize (DescribedField.ofField field).type = token at typed
  by_cases other : ∀ model, known.typeOf token ≠ .element (.reference model)
  · refine .other typed ?_ (tells_schema typed other)
    intro isKnown
    by_contra single
    exact other token ((known.typeOf_eq_reference_iff token token).2 ⟨isKnown, rfl, single⟩)
  · obtain ⟨model, resolved⟩ := not_forall_not.1 other
    obtain ⟨isKnown, rfl, single⟩ := (known.typeOf_eq_reference_iff token model).1 resolved
    have isToken := ((field.isTyped_iff token _).1 typed).1
    rw [DescribedField.schema, isToken, resolved]
    exact .reference typed isKnown single

/-- A field gives one node and no other. -/
theorem gives_iff (node : Schema) :
    field.Gives known node ↔ (DescribedField.ofField field).schema known = node := by
  constructor
  · intro gives
    cases gives with
    | @reference model _ typed isKnown single =>
      have isToken := ((field.isTyped_iff model _).1 typed).1
      have resolved := (known.typeOf_eq_reference_iff model model).2 ⟨isKnown, rfl, single⟩
      rw [DescribedField.schema, isToken, resolved]
    | @other token _ _ typed noModel told =>
      refine (tells_schema typed ?_).unique told
      intro model resolved
      obtain ⟨isKnown, rfl, single⟩ := (known.typeOf_eq_reference_iff token model).1 resolved
      exact single (noModel isKnown)
  · rintro rfl
    exact field.gives_schema known

end Nodes
end ModelField

/-! ## The schema of the fields -/

def requiredNames (fields : List ModelField) : List String :=
  (fields.filter fun field => Tags.contains field.tags "required").map (·.name)

theorem modelSchema_eq (name : String) (fields : List ModelField) (known : KnownModels)
    (hinted : Bool) :
    modelSchema name (fields.map DescribedField.ofField) known hinted =
      { type := some "object"
        required := if requiredNames fields = [] then none else some (requiredNames fields)
        properties := some (KeyMap.ofList (fields.map fun field =>
          (field.name, (DescribedField.ofField field).schema known)))
        xml := if hinted = true then some ⟨name, none⟩ else none } := by
  have named : ∀ field : ModelField, (DescribedField.ofField field).name = field.name := by
    intro field
    rw [field.ofField_eq]
  have tagged : ∀ field : ModelField, (DescribedField.ofField field).required =
      Tags.contains field.tags "required" := by
    intro field
    rw [field.ofField_eq]
  have required : ((fields.map DescribedField.ofField).filter (·.required)).map (·.name) =
      requiredNames fields := by
    rw [requiredNames, List.filter_map, List.map_map]
    simp only [Function.comp_def, named, tagged]
  rw [modelSchema]
  simp only [required, List.map_map, Function.comp_def, named, List.isEmpty_iff]

/-- The properties of a model are the nodes of its fields, of those with one name that of the
last one, and its required properties are the names of the fields with the tag for that. -/
theorem modelSchema_of_fields (name : String) (fields : List ModelField) (known : KnownModels)
    (hinted : Bool) :
    ∃ properties required,
      modelSchema name (fields.map DescribedField.ofField) known hinted =
        { type := some "object"
          required := if required = [] then none else some required
          properties := some properties
          xml := if hinted = true then some ⟨name, none⟩ else none } ∧
      KeyMap.Ascending properties ∧
      (∀ key, key ∈ KeyMap.keys properties ↔ ∃ field ∈ fields, field.name = key) ∧
      (∀ key node, KeyMap.get? properties key = some node ↔
        ToldLast (fun field key node => field.name = key ∧ ModelField.Gives field known node)
          fields key node) ∧
      required = (fields.filter fun field => Tags.contains field.tags "required").map (·.name) ∧
      (∀ key ∈ required, key ∈ KeyMap.keys properties) ∧
      ((fields.map (·.name)).Nodup → required.Nodup) := by
  refine ⟨_, _, modelSchema_eq name fields known hinted, KeyMap.ascending_ofList _, ?keys, ?nodes,
    rfl, ?among, ?distinct⟩
  case keys =>
    intro key
    rw [KeyMap.mem_keys_ofList, List.map_map, List.mem_map]
    rfl
  case nodes =>
    intro key node
    have reads : ∀ (field : ModelField) (key : String) (node : Schema),
        some (field.name, (DescribedField.ofField field).schema known) = some (key, node) ↔
          field.name = key ∧ field.Gives known node := by
      intro field key node
      rw [Option.some.injEq, Prod.mk.injEq, field.gives_iff]
    rw [KeyMap.get?_ofList, ← List.filterMap_eq_map',
      lastValue?_eq_some_iff_toldLast _ reads]
  case among =>
    intro key isRequired
    obtain ⟨field, tagged, rfl⟩ := List.mem_map.1 isRequired
    rw [KeyMap.mem_keys_ofList, List.map_map, List.mem_map]
    exact ⟨field, (List.mem_filter.1 tagged).1, rfl⟩
  case distinct =>
    intro distinct
    exact distinct.sublist (List.filter_sublist.map _)

def petsField : ModelField := ⟨"pets", "@var Pet[]", .null⟩

/-- As the type of a field, the name of a model that ends in the array marker is an array. -/
theorem array_of_marked_name :
    (KnownModels.ofNames ["Pet[]"]).contains "Pet[]" = true ∧ petsField.IsTyped "Pet[]" "" ∧
      (modelSchema "Shelf" [.ofField petsField] (.ofNames ["Pet[]"]) false).properties =
        some [("pets", Schema.arrayOf (Schema.ofType "Pet" none))] ∧
      Schema.arrayOf (Schema.ofType "Pet" none) ≠ Schema.toModel "Pet[]" := by
  refine ⟨by decide, ?_, rfl, ?_⟩
  · exact (ModelField.isTyped_iff _ _ _).2 ⟨by decide, by decide⟩
  · intro same
    cases congrArg Schema.reference same

end AnnotatedApi
