import AnnotatedApi.Proofs.LastValues
import AnnotatedApi.Proofs.References

/-!
# The definition of the response envelope

The envelope is defined first, and the named definitions after it into the same map.  So
a definition of its name takes its place, and its own fields have their primitive types
only as long as no definition is named like one of these types.
-/

set_option autoImplicit false

namespace AnnotatedApi

open Entries

/-! ## The envelope without a class of its name -/

def builtInEnvelope : Schema where
  type := some "object"
  properties := some
    [("code", Schema.ofType "integer" (some "int32")),
     ("message", Schema.ofType "string" none),
     ("type", Schema.ofType "string" none)]

def plainNode (known : KnownModels) (token : String) : Schema :=
  if known.contains token then Schema.toModel token else (PrimitiveType.ofToken token).schema

def envelopeField (name token : String) : DescribedField :=
  ⟨name, token, "", none, none, false, none, .null⟩

theorem ofField_of_single_tag {name comment token : String}
    (tags : (Comment.parse comment).tags = [("var", .single token)])
    (bare : Text.twoTokens token = (token, "")) :
    DescribedField.ofField ⟨name, comment, .null⟩ = envelopeField name token := by
  rw [DescribedField.ofField, tags]
  simp [DescribedField.ofTags, Tags.first?, Tags.find?, Tags.contains, Tags.values,
    KeyMap.contains, KeyMap.get?, Occurrences.head, bare, envelopeField]

theorem envelopeFields_eq :
    envelopeFields =
      [envelopeField "code" "int32", envelopeField "type" "string",
        envelopeField "message" "string"] := by
  have integer : (Comment.parse "@var int32").tags = [("var", .single "int32")] := by decide
  have text : (Comment.parse "@var string").tags = [("var", .single "string")] := by decide
  simp only [envelopeFields, List.map_cons, List.map_nil, ofField_of_single_tag integer (by decide),
    ofField_of_single_tag text (by decide)]

theorem schema_envelopeField (name : String) {token : String} (known : KnownModels)
    (noArray : KnownModels.arrayItems? token = none) (noMap : KnownModels.mapValues? token = none) :
    (envelopeField name token).schema known = plainNode known token := by
  rw [DescribedField.schema, KnownModels.typeOf, envelopeField, noArray]
  simp only [KnownModels.elementType]
  rw [plainNode]
  by_cases isKnown : known.contains token = true
  · simp only [if_pos isKnown]
  · simp only [if_neg isKnown, noMap]
    rfl

theorem sorted_envelopeMembers (code type message : Schema) :
    KeyMap.ofList [("code", code), ("type", type), ("message", message)] =
      [("code", code), ("message", message), ("type", type)] := by
  have two : KeyMap.insert [("code", code)] "type" type = [("code", code), ("type", type)] := by
    rw [KeyMap.insert, if_neg (by decide), if_neg (by decide), KeyMap.insert]
  have three : KeyMap.insert [("code", code), ("type", type)] "message" message =
      [("code", code), ("message", message), ("type", type)] := by
    rw [KeyMap.insert, if_neg (by decide), if_neg (by decide), KeyMap.insert,
      if_neg (by decide), if_pos (by decide)]
  rw [KeyMap.ofList, List.foldl_cons, List.foldl_cons, List.foldl_cons, List.foldl_nil,
    KeyMap.insert, two, three]

theorem envelopeSchema_eq (known : KnownModels) :
    envelopeSchema known =
      { type := some "object"
        properties := some [("code", plainNode known "int32"),
          ("message", plainNode known "string"), ("type", plainNode known "string")] } := by
  have integer := fun name => schema_envelopeField name known
    (show KnownModels.arrayItems? "int32" = none by decide) (by decide)
  have text := fun name => schema_envelopeField name known
    (show KnownModels.arrayItems? "string" = none by decide) (by decide)
  rw [envelopeSchema, modelSchema, envelopeFields_eq]
  simp only [List.map_cons, List.map_nil, integer, text]
  simp [envelopeField, sorted_envelopeMembers]

theorem plainNode_eq_iff (known : KnownModels) (token : String) :
    plainNode known token = (PrimitiveType.ofToken token).schema ↔ known.contains token = false := by
  rw [plainNode]
  by_cases isKnown : known.contains token = true
  · have different : Schema.toModel token ≠ (PrimitiveType.ofToken token).schema := by
      intro same
      have references := congrArg Schema.reference same
      cases references
    simp [isKnown, different]
  · simp [isKnown]

theorem envelopeSchema_eq_builtIn_iff (known : KnownModels) :
    envelopeSchema known = builtInEnvelope ↔
      known.contains "int32" = false ∧ known.contains "string" = false := by
  rw [← plainNode_eq_iff, ← plainNode_eq_iff, envelopeSchema_eq, builtInEnvelope]
  have integer : (PrimitiveType.ofToken "int32").schema =
      Schema.ofType "integer" (some "int32") := rfl
  have text : (PrimitiveType.ofToken "string").schema = Schema.ofType "string" none := rfl
  rw [integer, text]
  constructor
  · intro same
    have properties := Option.some.inj (congrArg Schema.properties same)
    simp only [List.cons.injEq, Prod.mk.injEq, true_and, and_true] at properties
    exact ⟨properties.1, properties.2.1⟩
  · rintro ⟨sameInteger, sameText⟩
    rw [sameInteger, sameText]

/-! ## The definition under the envelope's name -/

namespace Document

theorem definitionSchema_xml (known : KnownModels) (name : String) (model : AnnotatedClass) :
    (definitionSchema known name model).xml = some ⟨name, none⟩ := rfl

namespace Stages

variable {classes : String → Option AnnotatedClass} {settings : Settings}
  {controller : AnnotatedClass} {known : KnownModels} {definitions : List (String × Schema)}
  {placed : List PlacedOperation} {document : Document}

theorem get?_definitions
    (stages : Stages classes settings controller known definitions placed document) (name : String) :
    KeyMap.get? document.definitions name =
      (lastValue? definitions name).or
        (if envelopeName = name then some (envelopeSchema known) else none) := by
  rw [stages.definitions_eq, KeyMap.get?_ofList, lastValue?_cons]

theorem get?_definitions_of_mem
    (stages : Stages classes settings controller known definitions placed document) {name : String}
    (named : name ∈ (Comment.parse controller.comment).tags.values "definition") :
    ∃ model, modelClass classes settings.modelsNamespace name = .ok model ∧
      KeyMap.get? document.definitions name = some (definitionSchema known name model) := by
  rw [stages.get?_definitions]
  cases found : lastValue? definitions name with
  | none =>
    rw [lastValue?_eq_none_iff, map_fst_of_defines _ _ stages.forall₂_defines] at found
    exact absurd named found
  | some schema =>
    have among := mem_of_lastValue?_eq_some found
    obtain ⟨other, -, model, isModel, same⟩ :=
      exists_defines_of_mem _ _ stages.forall₂_defines among
    obtain ⟨rfl, rfl⟩ := Prod.mk.inj same
    exact ⟨model, isModel, rfl⟩

theorem get?_definitions_of_not_mem
    (stages : Stages classes settings controller known definitions placed document) {name : String}
    (unnamed : name ∉ (Comment.parse controller.comment).tags.values "definition") :
    KeyMap.get? document.definitions name =
      if envelopeName = name then some (envelopeSchema known) else none := by
  have absent : lastValue? definitions name = none := by
    rw [lastValue?_eq_none_iff, map_fst_of_defines _ _ stages.forall₂_defines]
    exact unnamed
  rw [stages.get?_definitions, absent, Option.none_or]

end Stages

theorem contains_ofNames_eq_false_iff {names : List String} {token : String}
    (other : token ≠ envelopeName) :
    (KnownModels.ofNames names).contains token = false ↔ token ∉ names := by
  rw [← Bool.not_eq_true, KnownModels.contains_ofNames_iff]
  simp [other]

/-- The definition under the name of the envelope in every document.  It is the built-in one
exactly if no definition is named like the envelope or like a type of its fields. -/
theorem envelope_definition {classes : String → Option AnnotatedClass} {settings : Settings}
    {document : Document} (compiled : compile classes settings = .ok document) :
    ∃ controller schema names, classes settings.controller = some controller ∧
      names = (Comment.parse controller.comment).tags.values "definition" ∧
      KeyMap.get? document.definitions "ApiResponse" = some schema ∧
      (schema = builtInEnvelope ↔
        "ApiResponse" ∉ names ∧ "int32" ∉ names ∧ "string" ∉ names) ∧
      (schema.xml = none ↔ "ApiResponse" ∉ names) ∧
      ("ApiResponse" ∉ names → schema =
        modelSchema "ApiResponse" envelopeFields (KnownModels.ofNames names) false) ∧
      ("ApiResponse" ∈ names → ∃ model,
        modelClass classes settings.modelsNamespace "ApiResponse" = .ok model ∧
          schema = definitionSchema (KnownModels.ofNames names) "ApiResponse" model) := by
  obtain ⟨controller, known, definitions, placed, stages⟩ :=
    (compile_eq_ok_iff _ _ _).1 compiled
  obtain rfl := stages.registered
  by_cases named : "ApiResponse" ∈ (Comment.parse controller.comment).tags.values "definition"
  · obtain ⟨model, isModel, found⟩ := stages.get?_definitions_of_mem named
    have hinted := definitionSchema_xml (KnownModels.ofNames
      ((Comment.parse controller.comment).tags.values "definition")) "ApiResponse" model
    refine ⟨controller, _, _, stages.found, rfl, found, ?_, ?_, ?_, fun _ => ⟨model, isModel, rfl⟩⟩
    · constructor
      · intro same
        rw [same] at hinted
        cases hinted
      · exact fun unnamed => absurd named unnamed.1
    · constructor
      · intro unhinted
        rw [unhinted] at hinted
        cases hinted
      · exact fun unnamed => absurd named unnamed
    · exact fun unnamed => absurd named unnamed
  · have found := stages.get?_definitions_of_not_mem named
    rw [if_pos (show envelopeName = "ApiResponse" from rfl)] at found
    refine ⟨controller, _, _, stages.found, rfl, found, ?_, ?_, fun _ => rfl, fun isNamed =>
      absurd isNamed named⟩
    · rw [envelopeSchema_eq_builtIn_iff, contains_ofNames_eq_false_iff (by decide),
        contains_ofNames_eq_false_iff (by decide)]
      exact (and_iff_right named).symm
    · exact iff_of_true rfl named

def ferryClasses (comment : String) : List AnnotatedClass := [
  { name := "Ferry", comment, model := false, procedures := [], fields := [] },
  { name := "ApiResponse", comment := "", model := true, procedures := []
    fields := [⟨"deck", "@var int32", .null⟩] },
  { name := "Deck", comment := "", model := true, procedures := [], fields := [] }]

def ferryClass? (comment name : String) : Option AnnotatedClass :=
  (ferryClasses comment).find? fun cls => cls.name = name

theorem envelope_definition_ferry :
    ∃ document, compile (ferryClass? "@definition Deck") { controller := "Ferry" } = .ok document ∧
      KeyMap.get? document.definitions "ApiResponse" = some builtInEnvelope := by
  have returned : ∃ document,
      compile (ferryClass? "@definition Deck") { controller := "Ferry" } = .ok document := ⟨_, rfl⟩
  obtain ⟨document, compiled⟩ := returned
  obtain ⟨controller, schema, names, found, isNames, looked, builtIn, -⟩ :=
    envelope_definition compiled
  have listed : names = ["Deck"] := by
    obtain rfl := Option.some.inj found
    rw [isNames]
    decide
  rw [listed] at builtIn
  rw [builtIn.2 (by decide)] at looked
  exact ⟨document, compiled, looked⟩

/-- A definition of the envelope's name replaces the envelope. -/
theorem envelope_overridden_ferry :
    ∃ document schema,
      compile (ferryClass? "@definition ApiResponse") { controller := "Ferry" } = .ok document ∧
        KeyMap.get? document.definitions "ApiResponse" = some schema ∧
        schema.xml = some ⟨"ApiResponse", none⟩ ∧ schema ≠ builtInEnvelope := by
  have returned : ∃ document schema,
      compile (ferryClass? "@definition ApiResponse") { controller := "Ferry" } = .ok document ∧
        KeyMap.get? document.definitions "ApiResponse" = some schema ∧
        schema.xml = some ⟨"ApiResponse", none⟩ := ⟨_, _, rfl, rfl, rfl⟩
  obtain ⟨document, schema, compiled, looked, hinted⟩ := returned
  refine ⟨document, schema, compiled, looked, hinted, ?_⟩
  intro same
  rw [same] at hinted
  cases hinted

end Document
end AnnotatedApi
