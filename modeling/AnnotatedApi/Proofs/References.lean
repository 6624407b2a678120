import AnnotatedApi.Proofs.SchemaNodes
import AnnotatedApi.Proofs.TypeTokens

/-!
# References of a document

The known models of a run are the names that its document defines, and no
reference leaves them.
-/

set_option autoImplicit false

namespace AnnotatedApi

/-! ## References to known models -/

def RefersWithin (known : KnownModels) (node : Schema) : Prop :=
  ∀ place, node.reference = some place →
    ∃ name, known.contains name = true ∧ place = "#/definitions/" ++ name

theorem refersWithin_of_no_reference {known : KnownModels} {node : Schema}
    (absent : node.reference = none) : RefersWithin known node := by
  intro place present
  rw [absent] at present
  cases present

theorem refersWithin_elementType (known : KnownModels) (token : String) :
    (known.elementType token).schema.Everywhere (RefersWithin known) := by
  refine Schema.everywhere_elementType _ ?_ ?_ ?_
  · intro model type place present
    obtain ⟨isKnown, -⟩ := (known.elementType_eq_reference_iff token model).1 type
    cases present
    exact ⟨model, isKnown, rfl⟩
  · exact fun _ _ => refersWithin_of_no_reference rfl
  · exact fun _ => refersWithin_of_no_reference rfl

theorem refersWithin_typeOf (known : KnownModels) (token : String) :
    (known.typeOf token).schema.Everywhere (RefersWithin known) := by
  rw [KnownModels.typeOf]
  cases KnownModels.arrayItems? token with
  | none => exact refersWithin_elementType known token
  | some items =>
    exact Schema.everywhere_arrayOf (refersWithin_of_no_reference rfl)
      (refersWithin_elementType known items)

theorem structural_refersWithin (known : KnownModels) : Schema.Structural (RefersWithin known) := by
  intro node other plain same _
  have sameReference := ((Schema.skeleton_eq_iff other node).1 same).1
  exact refersWithin_of_no_reference (sameReference.trans plain)

theorem refersWithin_of_origin {known : KnownModels} {schema : Schema}
    (origin : Origin known schema) : schema.Everywhere (RefersWithin known) := by
  refine origin.everywhere (structural_refersWithin known) (refersWithin_typeOf known) ?_
  intro name fields hinted
  exact refersWithin_of_no_reference rfl

/-! ## Whole documents -/

namespace Document

theorem Stages.mem_keys_definitions_iff {classes : String → Option AnnotatedClass}
    {settings : Settings} {controller : AnnotatedClass} {known : KnownModels}
    {definitions : List (String × Schema)} {placed : List PlacedOperation} {document : Document}
    (stages : Stages classes settings controller known definitions placed document)
    (name : String) :
    name ∈ KeyMap.keys document.definitions ↔
      name = envelopeName ∨
        name ∈ (Comment.parse controller.comment).tags.values "definition" := by
  rw [stages.definitions_eq, KeyMap.mem_keys_ofList, List.map_cons, List.mem_cons,
    map_fst_of_defines _ _ stages.forall₂_defines]

/-- The definitions of a document, the known models under which its run resolves every
type token, and the references in it speak of the same names. -/
theorem references_closed {classes : String → Option AnnotatedClass} {settings : Settings}
    {document : Document} (compiled : compile classes settings = .ok document) :
    ∃ controller known definitions placed,
      Stages classes settings controller known definitions placed document ∧
      (∀ name, name ∈ KeyMap.keys document.definitions ↔
        name = "ApiResponse" ∨
          name ∈ (Comment.parse controller.comment).tags.values "definition") ∧
      (∀ name, known.contains name = true ↔ name ∈ KeyMap.keys document.definitions) ∧
      (∀ node, document.HasNode node → ∀ place, node.reference = some place →
        ∃ name ∈ KeyMap.keys document.definitions, place = "#/definitions/" ++ name) ∧
      (∀ token name, known.typeOf token = .element (.reference name) ↔
        name ∈ KeyMap.keys document.definitions ∧ token = name ∧
          ¬ "[]".toList <:+ token.toList) ∧
      (∀ token name, known.typeOf token = .array (.reference name) ↔
        name ∈ KeyMap.keys document.definitions ∧ token = name ++ "[]") := by
  obtain ⟨controller, known, definitions, placed, stages⟩ :=
    (compile_eq_ok_iff _ _ _).1 compiled
  have defined := stages.mem_keys_definitions_iff
  have isKnown : ∀ name, known.contains name = true ↔
      name ∈ KeyMap.keys document.definitions := by
    intro name
    rw [defined, stages.registered]
    exact KnownModels.contains_ofNames_iff _ name
  refine ⟨controller, known, definitions, placed, stages, defined, isKnown, ?_, ?_, ?_⟩
  · rintro node ⟨schema, among, below⟩ place present
    have within := refersWithin_of_origin (stages.origin_of_mem_schemas among) node below
    obtain ⟨name, nameKnown, same⟩ := within place present
    exact ⟨name, (isKnown name).1 nameKnown, same⟩
  · intro token name
    rw [KnownModels.typeOf_eq_reference_iff, isKnown]
  · intro token name
    rw [KnownModels.typeOf_eq_array_reference_iff, isKnown]

def kennelClasses : List AnnotatedClass := [
  { name := "Kennel"
    comment := "Kennels\n@definition Pet\n@definition Owner"
    model := false
    procedures := [
      ⟨"actionPutPets", "Kennel", [],
        "@path /pets\n@method put\n@parameter Pet[] $pets\n@return Owner[] the owners"⟩]
    fields := [] },
  { name := "Models::Pet", comment := "", model := true, procedures := []
    fields := [⟨"owner", "@var Owner", .null⟩] },
  { name := "Models::Owner", comment := "", model := true, procedures := []
    fields := [⟨"pets", "@var Pet[]", .null⟩] }]

def kennelSettings : Settings := { modelsNamespace := "Models", controller := "Kennel" }

def kennelClass? (name : String) : Option AnnotatedClass :=
  kennelClasses.find? fun cls => cls.name = name

theorem references_closed_kennel :
    ∃ document, compile kennelClass? kennelSettings = .ok document ∧
      KeyMap.keys document.definitions = ["ApiResponse", "Owner", "Pet"] ∧
      document.HasNode (Schema.toModel "Owner") ∧
      ∀ node, document.HasNode node → ∀ place, node.reference = some place →
        ∃ name ∈ ["ApiResponse", "Owner", "Pet"], place = "#/definitions/" ++ name := by
  have returned : ∃ document, compile kennelClass? kennelSettings = .ok document ∧
      KeyMap.keys document.definitions = ["ApiResponse", "Owner", "Pet"] ∧
      document.schemas.getLast? = some (Schema.arrayOf (Schema.toModel "Owner")) :=
    ⟨_, rfl, rfl, rfl⟩
  obtain ⟨document, compiled, keys, last⟩ := returned
  obtain ⟨controller, known, definitions, placed, -, -, -, closed, -, -⟩ := references_closed compiled
  refine ⟨document, compiled, keys, ?_, ?_⟩
  · exact ⟨_, List.mem_of_getLast? last, .items rfl (.root _)⟩
  · rwa [keys] at closed

end Document
end AnnotatedApi
