import AnnotatedApi.Proofs.Envelope
import AnnotatedApi.Proofs.Outcome
import AnnotatedApi.Proofs.Paths
import AnnotatedApi.Proofs.ReadTags

/-!
# The set of definition names

A run registers every definition name before it resolves a type, and defines each model
by itself.  So what it makes of a controller's comment depends on the names as a set, and
models may refer to each other whatever stands first.
-/

set_option autoImplicit false

namespace AnnotatedApi

open Entries

/-! ## Known models -/

namespace KnownModels

theorem typeOf_congr {known known' : KnownModels}
    (same : ∀ token, known.contains token = known'.contains token) :
    known.typeOf = known'.typeOf := by
  have element : known.elementType = known'.elementType := by
    funext token
    rw [elementType, elementType, same]
  funext token
  rw [typeOf, typeOf, element]

theorem typeOf_ofNames_congr {names names' : List String}
    (same : ∀ name, name ∈ names ↔ name ∈ names') :
    (ofNames names).typeOf = (ofNames names').typeOf := by
  apply typeOf_congr
  intro token
  rw [Bool.eq_iff_iff, contains_ofNames_iff, contains_ofNames_iff, same]

end KnownModels

section SameTypes
variable {known known' : KnownModels} (same : known.typeOf = known'.typeOf)
include same

theorem DescribedField.schema_congr (field : DescribedField) :
    field.schema known = field.schema known' := by
  rw [schema, schema, same]

theorem modelSchema_congr (name : String) (fields : List DescribedField) (hinted : Bool) :
    modelSchema name fields known hinted = modelSchema name fields known' hinted := by
  simp only [modelSchema, DescribedField.schema_congr same]

theorem definitionSchema_congr (name : String) {model model' : AnnotatedClass}
    (described : model.described = model'.described) :
    definitionSchema known name model = definitionSchema known' name model' := by
  have fields : model.fields.map DescribedField.ofField =
      model'.fields.map DescribedField.ofField := congrArg Prod.snd described
  rw [definitionSchema, definitionSchema, fields, modelSchema_congr same]

theorem ControllerContext.place_congr_types (settings : Settings) (produces : List String)
    (procedure : Procedure) (comment : Comment) :
    place ⟨known, settings, produces⟩ procedure comment =
      place ⟨known', settings, produces⟩ procedure comment := by
  have success : successResponse comment.tags known = successResponse comment.tags known' := by
    funext value
    rw [successResponse, successResponse, same]
  have each : ParameterContext.parameter
      ⟨procedure, comment.tags, comment.path, comment.method, known⟩ =
        ParameterContext.parameter
          ⟨procedure, comment.tags, comment.path, comment.method, known'⟩ := by
    funext required value
    simp only [ParameterContext.parameter, ParameterContext.locationOf, same]
  simp only [place, operation, produced?, ParameterContext.parameters, each, responses,
    writtenResponses, success]

theorem ControllerContext.offered_congr_types (settings : Settings) (produces : List String)
    (controller : AnnotatedClass) (procedures : List Procedure) :
    offered ⟨known, settings, produces⟩ controller procedures =
      offered ⟨known', settings, produces⟩ controller procedures := by
  simp only [offered, place_congr_types same]

end SameTypes

/-! ## Fields whose type is a model -/

section Fields
variable {known : KnownModels} {field : DescribedField} {model : String}

theorem DescribedField.schema_of_reference
    (resolved : known.typeOf field.type = .element (.reference model)) :
    field.schema known = Schema.toModel model := by
  rw [schema, resolved]

theorem DescribedField.schema_of_array_reference
    (resolved : known.typeOf field.type = .array (.reference model)) :
    (field.schema known).type = some "array" ∧
      (field.schema known).items = some (Schema.toModel model) := by
  rw [schema, resolved]
  exact ⟨rfl, rfl⟩

end Fields

def LastField (model : AnnotatedClass) (field : ModelField) : Prop :=
  ∃ before after, model.fields = before ++ field :: after ∧
    ∀ later ∈ after, later.name ≠ field.name

/-- The node of a model refers to each model of the names that is the type of a field, or of
the items of a field. -/
def RefersAsTyped (names : List String) (model : AnnotatedClass) (schema : Schema) : Prop :=
  ∀ field, LastField model field → ∃ properties, schema.properties = some properties ∧
    ∀ other ∈ names,
      ((DescribedField.ofField field).type = other → ¬ "[]".toList <:+ other.toList →
        KeyMap.get? properties field.name = some (Schema.toModel other)) ∧
      ((DescribedField.ofField field).type = other ++ "[]" →
        ∃ node, KeyMap.get? properties field.name = some node ∧ node.type = some "array" ∧
          node.items = some (Schema.toModel other))

section Properties
variable (known : KnownModels) (name : String) {model : AnnotatedClass}

theorem get?_properties_of_lastField {field : ModelField} (last : LastField model field) :
    ∃ properties, (definitionSchema known name model).properties = some properties ∧
      KeyMap.get? properties field.name = some ((DescribedField.ofField field).schema known) := by
  obtain ⟨before, after, split, later⟩ := last
  refine ⟨_, rfl, ?_⟩
  have silent : lastValue? ((after.map DescribedField.ofField).map fun described =>
      (described.name, described.schema known)) field.name = none := by
    rw [lastValue?_eq_none_iff]
    intro among
    simp only [List.map_map, List.mem_map, Function.comp_apply] at among
    obtain ⟨other, isLater, same⟩ := among
    exact later other isLater same
  have named : (DescribedField.ofField field).name = field.name := rfl
  rw [KeyMap.get?_ofList, split, List.map_append, List.map_append, lastValue?_append,
    List.map_cons, List.map_cons, lastValue?_cons, silent, Option.none_or, if_pos named,
    Option.some_or]

theorem refersAsTyped_definitionSchema {names : List String}
    (registered : ∀ other ∈ names, known.contains other = true) :
    RefersAsTyped names model (definitionSchema known name model) := by
  intro field last
  obtain ⟨properties, hasProperties, property⟩ := get?_properties_of_lastField known name last
  refine ⟨properties, hasProperties, fun other named => ?_⟩
  have isKnown := registered other named
  constructor
  · intro token bare
    rw [property, DescribedField.schema_of_reference
      ((known.typeOf_eq_reference_iff _ other).2 ⟨isKnown, token, token ▸ bare⟩)]
  · intro token
    exact ⟨_, property, DescribedField.schema_of_array_reference
      ((known.typeOf_eq_array_reference_iff _ other).2 ⟨isKnown, token⟩)⟩

end Properties

/-! ## Classes that differ in their comments -/

structure AnnotatedClass.SameBody (cls other : AnnotatedClass) : Prop where
  name : cls.name = other.name
  model : cls.model = other.model
  procedures : cls.procedures = other.procedures
  fields : cls.fields = other.fields

theorem AnnotatedClass.SameBody.symm {cls other : AnnotatedClass} (same : cls.SameBody other) :
    other.SameBody cls :=
  ⟨same.name.symm, same.model.symm, same.procedures.symm, same.fields.symm⟩

theorem AnnotatedClass.SameBody.described_eq {cls other : AnnotatedClass}
    (same : cls.SameBody other) : cls.described = other.described := by
  rw [described, described, same.model, same.fields]

def SameBodies (classes classes' : String → Option AnnotatedClass) : Prop :=
  ∀ name, Option.Rel AnnotatedClass.SameBody (classes name) (classes' name)

section Classes
variable {classes classes' : String → Option AnnotatedClass}

theorem SameBodies.symm (bodies : SameBodies classes classes') : SameBodies classes' classes := by
  intro name
  have here := bodies name
  generalize classes name = cls at here
  generalize classes' name = cls' at here
  cases here with
  | none => exact .none
  | some same => exact .some same.symm

theorem SameBodies.map_described (bodies : SameBodies classes classes') (name : String) :
    (classes name).map AnnotatedClass.described = (classes' name).map AnnotatedClass.described :=
  map_eq_map_of_rel (bodies name) fun _ _ same => same.described_eq

theorem SameBodies.sameBody (bodies : SameBodies classes classes') {name : String}
    {cls cls' : AnnotatedClass} (found : classes name = some cls)
    (found' : classes' name = some cls') : cls.SameBody cls' := by
  have here := bodies name
  rw [found, found'] at here
  cases here with
  | some same => exact same

def recommented (classes : String → Option AnnotatedClass) (owner comment name : String) :
    Option AnnotatedClass :=
  if name = owner then (classes name).map fun cls => { cls with comment }
  else classes name

theorem sameBodies_recommented (classes : String → Option AnnotatedClass)
    (owner comment comment' : String) :
    SameBodies (recommented classes owner comment) (recommented classes owner comment') := by
  intro name
  rw [recommented, recommented]
  by_cases isOwner : name = owner
  · rw [if_pos isOwner, if_pos isOwner]
    cases classes name with
    | none => exact .none
    | some cls => exact .some ⟨rfl, rfl, rfl, rfl⟩
  · rw [if_neg isOwner, if_neg isOwner]
    cases classes name with
    | none => exact .none
    | some cls => exact .some ⟨rfl, rfl, rfl, rfl⟩

theorem standsForModel_congr (bodies : SameBodies classes classes')
    (modelsNamespace name : String) :
    StandsForModel classes modelsNamespace name ↔ StandsForModel classes' modelsNamespace name := by
  have same := map_described_modelClass bodies.map_described modelsNamespace name
  rw [standsForModel_iff, standsForModel_iff]
  cases found : modelClass classes modelsNamespace name <;>
    cases found' : modelClass classes' modelsNamespace name <;>
    simp [found, found', Except.map] at same ⊢

end Classes

/-! ## Controllers that differ in their comments -/

section Controllers
variable {controller controller' : AnnotatedClass} (sameName : controller.name = controller'.name)
include sameName

theorem AnnotatedClass.offers_congr (procedure : Procedure) :
    controller.Offers procedure ↔ controller'.Offers procedure := by
  rw [Offers, Offers, sameName]

theorem Settings.accepts_congr (settings : Settings) (procedure : Procedure) :
    settings.Accepts controller procedure ↔ settings.Accepts controller' procedure := by
  rw [Accepts, Accepts, AnnotatedClass.offers_congr sameName]

theorem ControllerContext.offered_congr (context : ControllerContext)
    (procedures : List Procedure) :
    context.offered controller procedures = context.offered controller' procedures := by
  simp only [offered, AnnotatedClass.offers_congr sameName]

end Controllers

/-- Two comments name the same definitions, in whatever order and however often. -/
def Comment.SameDefinitions (comment other : Comment) : Prop :=
  ∀ name, name ∈ comment.tags.values "definition" ↔ name ∈ other.tags.values "definition"

structure Comment.SameButDefinitions (comment other : Comment) : Prop where
  summary : comment.summary = other.summary
  detail : comment.detail = other.detail
  tags : ∀ name, name ≠ "definition" → comment.tags.find? name = other.tags.find? name
  definitions : comment.SameDefinitions other

theorem Comment.SameButDefinitions.symm {comment other : Comment}
    (same : comment.SameButDefinitions other) : other.SameButDefinitions comment :=
  ⟨same.summary.symm, same.detail.symm, fun name unlike => (same.tags name unlike).symm,
    fun name => (same.definitions name).symm⟩

theorem Comment.SameButDefinitions.agreeOn {comment other : Comment}
    (same : comment.SameButDefinitions other) :
    Comment.AgreeOn Comment.generalTags comment other := by
  refine ⟨same.summary, same.detail, fun name among => same.tags name ?_⟩
  rintro rfl
  exact absurd among (by decide)

section Runs
variable {classes classes' : String → Option AnnotatedClass} {settings : Settings}
  {controller controller' : AnnotatedClass} {known known' : KnownModels}
  {definitions definitions' : List (String × Schema)} {placed placed' : List PlacedOperation}
  {document document' : Document}

theorem compilable_of_found_iff (found : classes settings.controller = some controller) :
    Compilable classes settings ↔
      (∀ name ∈ (Comment.parse controller.comment).tags.values "definition",
        StandsForModel classes settings.modelsNamespace name) ∧
      ∀ procedure ∈ controller.procedures, settings.Accepts controller procedure := by
  simp [Compilable, found]

section Pairs
variable (bodies : SameBodies classes classes')
  (found : classes settings.controller = some controller)
  (found' : classes' settings.controller = some controller')
  (names : (Comment.parse controller.comment).SameDefinitions (Comment.parse controller'.comment))
include bodies found found' names

theorem compilable_congr : Compilable classes settings ↔ Compilable classes' settings := by
  have same := bodies.sameBody found found'
  rw [compilable_of_found_iff found, compilable_of_found_iff found', same.procedures]
  simp only [names _, standsForModel_congr bodies, Settings.accepts_congr same.name]

end Pairs

namespace Document

theorem exists_stages (found : classes settings.controller = some controller)
    (compiled : compile classes settings = .ok document) :
    ∃ known definitions placed,
      Stages classes settings controller known definitions placed document := by
  obtain ⟨_, known, definitions, placed, stages⟩ := (compile_eq_ok_iff _ _ _).1 compiled
  obtain rfl := Option.some.inj (found.symm.trans stages.found)
  exact ⟨known, definitions, placed, stages⟩

theorem exists_compile_congr (bodies : SameBodies classes classes')
    (found : classes settings.controller = some controller)
    (found' : classes' settings.controller = some controller')
    (names : (Comment.parse controller.comment).SameDefinitions (Comment.parse controller'.comment))
    (compiled : compile classes settings = .ok document) :
    ∃ document', compile classes' settings = .ok document' := by
  have compilable := (compilable_iff classes settings).1 ⟨document, compiled⟩
  exact (compilable_iff classes' settings).2
    ((compilable_congr bodies found found' names).1 compilable)

theorem typeOf_congr
    (names : (Comment.parse controller.comment).SameDefinitions (Comment.parse controller'.comment))
    (stages : Stages classes settings controller known definitions placed document)
    (stages' : Stages classes' settings controller' known' definitions' placed' document') :
    known.typeOf = known'.typeOf := by
  rw [stages.registered, stages'.registered]
  exact KnownModels.typeOf_ofNames_congr names

theorem Stages.ascending_definitions
    (stages : Stages classes settings controller known definitions placed document) :
    KeyMap.Ascending document.definitions := by
  rw [stages.definitions_eq]
  exact KeyMap.ascending_ofList _

/-- Models are defined one by one under their names. -/
theorem definitions_congr (bodies : SameBodies classes classes')
    (names : (Comment.parse controller.comment).SameDefinitions (Comment.parse controller'.comment))
    (stages : Stages classes settings controller known definitions placed document)
    (stages' : Stages classes' settings controller' known' definitions' placed' document') :
    document.definitions = document'.definitions := by
  have types := typeOf_congr names stages stages'
  refine KeyMap.ext_of_ascending stages.ascending_definitions stages'.ascending_definitions
    fun name => ?_
  by_cases named : name ∈ (Comment.parse controller.comment).tags.values "definition"
  · obtain ⟨model, isModel, defined⟩ := stages.get?_definitions_of_mem named
    obtain ⟨model', isModel', defined'⟩ := stages'.get?_definitions_of_mem ((names name).1 named)
    have described := map_described_modelClass bodies.map_described settings.modelsNamespace name
    rw [isModel, isModel'] at described
    rw [defined, defined', definitionSchema_congr types name (Except.ok.inj described)]
  · rw [stages.get?_definitions_of_not_mem named,
      stages'.get?_definitions_of_not_mem (mt (names name).2 named), envelopeSchema, envelopeSchema,
      modelSchema_congr types]

theorem compile_eq_ok_of_sameButDefinitions (bodies : SameBodies classes classes')
    (found : classes settings.controller = some controller)
    (found' : classes' settings.controller = some controller')
    (comments : (Comment.parse controller.comment).SameButDefinitions
      (Comment.parse controller'.comment))
    (compiled : compile classes settings = .ok document) :
    compile classes' settings = .ok document := by
  obtain ⟨document', compiled'⟩ :=
    exists_compile_congr bodies found found' comments.definitions compiled
  obtain ⟨known, definitions, placed, stages⟩ := exists_stages found compiled
  obtain ⟨known', definitions', placed', stages'⟩ := exists_stages found' compiled'
  have body := bodies.sameBody found found'
  have types := typeOf_congr comments.definitions stages stages'
  have produces : (Comment.parse controller.comment).tags.values "produces" =
      (Comment.parse controller'.comment).tags.values "produces" := by
    rw [Tags.values, Tags.values, comments.tags "produces" (by decide)]
  have paths : document.paths = document'.paths := by
    rw [stages.paths_eq, stages'.paths_eq, produces, body.procedures,
      ControllerContext.offered_congr_types types, ControllerContext.offered_congr body.name]
  have defined := definitions_congr bodies comments.definitions stages stages'
  have same : document = document' := calc
    document = assemble settings (Comment.parse controller.comment) document.definitions
        document.paths := stages.eq_assemble
    _ = assemble settings (Comment.parse controller'.comment) document'.definitions
        document'.paths := by rw [defined, paths, assemble_congr comments.agreeOn]
    _ = document' := stages'.eq_assemble.symm
  rw [same, compiled']

/-- The order and the repetition of definitions make no difference: two comments that differ
in nothing else succeed together, with one document, in which every model refers to each
model, itself included, that is the type of one of its fields. -/
theorem compile_of_same_definitions (bodies : SameBodies classes classes')
    (found : classes settings.controller = some controller)
    (found' : classes' settings.controller = some controller')
    (comments : (Comment.parse controller.comment).SameButDefinitions
      (Comment.parse controller'.comment)) :
    (∀ document, compile classes settings = .ok document ↔
      compile classes' settings = .ok document) ∧
    ∀ document, compile classes settings = .ok document →
      ∀ name ∈ (Comment.parse controller.comment).tags.values "definition",
        ∃ model schema, modelClass classes settings.modelsNamespace name = .ok model ∧
          KeyMap.get? document.definitions name = some schema ∧
          RefersAsTyped ((Comment.parse controller.comment).tags.values "definition") model
            schema := by
  constructor
  · intro document
    exact ⟨compile_eq_ok_of_sameButDefinitions bodies found found' comments,
      compile_eq_ok_of_sameButDefinitions bodies.symm found' found comments.symm⟩
  · intro document compiled name named
    obtain ⟨known, definitions, placed, stages⟩ := exists_stages found compiled
    obtain ⟨model, isModel, defined⟩ := stages.get?_definitions_of_mem named
    refine ⟨model, _, isModel, defined, refersAsTyped_definitionSchema known name ?_⟩
    intro other isNamed
    rw [stages.registered]
    exact (KnownModels.contains_ofNames_iff _ other).2 (Or.inr isNamed)

end Document
end Runs

/-! Two models that refer to each other, one also to itself. -/

def hare : AnnotatedClass :=
  { name := "Hare", comment := "", model := true, procedures := []
    fields := [⟨"home", "@var Burrow", .null⟩, ⟨"kin", "@var Hare[]", .null⟩] }

def burrow : AnnotatedClass :=
  { name := "Burrow", comment := "", model := true, procedures := []
    fields := [⟨"tenants", "@var Hare[]", .null⟩] }

def warren : AnnotatedClass :=
  { name := "Warren", comment := "", model := false, procedures := [], fields := [] }

def warrenClass? (comment : String) : String → Option AnnotatedClass :=
  recommented (fun name => [warren, hare, burrow].find? fun cls => cls.name = name) "Warren" comment

def haresFirst : String := "Warrens\n@definition Hare\n@definition Burrow\n@version 2"

def burrowsFirst : String :=
  "Warrens\n@definition Burrow\n@version 2\n@definition Hare\n@definition Burrow"

theorem sameButDefinitions_warrens :
    (Comment.parse haresFirst).SameButDefinitions (Comment.parse burrowsFirst) := by
  have tags : (Comment.parse haresFirst).tags =
      [("definition", .multiple ["Hare", "Burrow"]), ("version", .single "2")] := by
    decide +kernel
  have tags' : (Comment.parse burrowsFirst).tags =
      [("definition", .multiple ["Burrow", "Hare", "Burrow"]), ("version", .single "2")] := by
    decide +kernel
  refine ⟨by decide +kernel, by decide +kernel, ?_, ?_⟩
  · intro name other
    simp [tags, tags', Tags.find?, KeyMap.get?, other]
  · intro name
    rw [tags, tags']
    have more : ∀ name ∈ ["Hare", "Burrow"], name ∈ ["Burrow", "Hare", "Burrow"] := by decide
    have fewer : ∀ name ∈ ["Burrow", "Hare", "Burrow"], name ∈ ["Hare", "Burrow"] := by decide
    exact ⟨more name, fewer name⟩

theorem Document.compile_of_same_definitions_warren :
    ∃ document schema,
      Document.compile (warrenClass? haresFirst) { controller := "Warren" } = .ok document ∧
      Document.compile (warrenClass? burrowsFirst) { controller := "Warren" } = .ok document ∧
      KeyMap.get? document.definitions "Hare" = some schema ∧
      schema.properties.bind (KeyMap.get? · "home") = some (Schema.toModel "Burrow") := by
  have found : warrenClass? haresFirst ({ controller := "Warren" } : Settings).controller =
      some { warren with comment := haresFirst } := rfl
  have found' : warrenClass? burrowsFirst ({ controller := "Warren" } : Settings).controller =
      some { warren with comment := burrowsFirst } := rfl
  have both := Document.compile_of_same_definitions
    (sameBodies_recommented _ "Warren" haresFirst burrowsFirst) found found'
    sameButDefinitions_warrens
  have names : (Comment.parse haresFirst).tags.values "definition" =
      ["Hare", "Burrow"] := by
    decide +kernel
  have isHare : modelClass (warrenClass? haresFirst) "" "Hare" = .ok hare := rfl
  have isBurrow : modelClass (warrenClass? haresFirst) "" "Burrow" = .ok burrow := rfl
  obtain ⟨document, compiled⟩ := (compilable_iff (warrenClass? haresFirst)
    { controller := "Warren" }).2 (by
      rw [compilable_of_found_iff found, names]
      refine ⟨?_, List.forall_mem_nil _⟩
      simp only [List.forall_mem_cons, standsForModel_iff]
      exact ⟨⟨hare, isHare⟩, ⟨burrow, isBurrow⟩, List.forall_mem_nil _⟩)
  rw [names] at both
  obtain ⟨model, schema, isModel, defined, refers⟩ := both.2 document compiled "Hare" (by decide)
  rw [← Except.ok.inj (isHare.symm.trans isModel)] at refers
  obtain ⟨properties, hasProperties, refers⟩ := refers ⟨"home", "@var Burrow", .null⟩
    ⟨[], [⟨"kin", "@var Hare[]", .null⟩], rfl, by decide⟩
  have home := (refers "Burrow" (by decide)).1 (by decide) (by decide)
  refine ⟨document, schema, compiled, (both.1 document).1 compiled, defined, ?_⟩
  rw [hasProperties, Option.bind_some, home]

end AnnotatedApi
