import AnnotatedApi.Proofs.Run

/-!
# The tags that a compilation reads

Every kind of comment is read under a fixed list of tag names.  Classes that differ in
their comments only, and nowhere under a name that is read, give one document or one
error.
-/

set_option autoImplicit false

namespace AnnotatedApi

/-! ## Tags -/

namespace Tags

def AgreeOn (read : List String) (tags other : Tags) : Prop :=
  ∀ name ∈ read, Tags.find? tags name = Tags.find? other name

section Agreement
variable {read : List String} {tags other : Tags} (agree : Tags.AgreeOn read tags other)
  (name : String) (isRead : name ∈ read)
include agree isRead

theorem AgreeOn.values_eq : Tags.values tags name = Tags.values other name := by
  rw [Tags.values, Tags.values, agree name isRead]

theorem AgreeOn.values?_eq : Tags.values? tags name = Tags.values? other name := by
  rw [Tags.values?, Tags.values?, agree name isRead]

theorem AgreeOn.first?_eq : Tags.first? tags name = Tags.first? other name := by
  rw [Tags.first?, Tags.first?, agree name isRead]

theorem AgreeOn.contains_eq : Tags.contains tags name = Tags.contains other name := by
  have found := agree name isRead
  rw [Tags.find?, Tags.find?] at found
  rw [Tags.contains, Tags.contains, KeyMap.contains, KeyMap.contains, found]

end Agreement
end Tags

/-! ## Comments -/

namespace Comment

def controllerTags : List String :=
  ["definition", "produces", "host", "basePath", "tag", "tagExternalDocs", "scheme",
    "externalDocs", "version", "termsOfService", "email", "license"]

def procedureTags : List String :=
  ["path", "method", "enum", "produces", "consumes", "tag", "parameter", "optparameter",
    "constraint", "default", "return", "emitsHeader", "errors", "security"]

def fieldTags : List String := ["var", "format", "example", "required", "enum"]

def generalTags : List String :=
  controllerTags.filter fun name => name ≠ "definition" ∧ name ≠ "produces"

structure AgreeOn (read : List String) (comment other : Comment) : Prop where
  summary : comment.summary = other.summary
  detail : comment.detail = other.detail
  tags : Tags.AgreeOn read comment.tags other.tags

theorem AgreeOn.mono {read fewer : List String} {comment other : Comment}
    (agree : AgreeOn read comment other) (among : fewer ⊆ read) : AgreeOn fewer comment other :=
  ⟨agree.summary, agree.detail, fun name isRead => agree.tags name (among isRead)⟩

end Comment

/-! ## Fields -/

theorem DescribedField.ofTags_congr {tags other : Tags}
    (agree : Tags.AgreeOn Comment.fieldTags tags other) (name : String) (default : Json.Value) :
    DescribedField.ofTags name default tags = DescribedField.ofTags name default other := by
  rw [DescribedField.ofTags, DescribedField.ofTags, agree.first?_eq "var" (by decide),
    agree.first?_eq "format" (by decide), agree.first?_eq "example" (by decide),
    agree.contains_eq "required" (by decide), agree.values_eq "enum" (by decide)]

/-! ## Operations -/

section Operations
variable {tags other : Tags} (agree : Tags.AgreeOn Comment.procedureTags tags other)
include agree

theorem enumerations_congr : enumerations tags = enumerations other := by
  rw [enumerations, enumerations, agree.values_eq "enum" (by decide)]

theorem constraintsOf_congr : constraintsOf tags = constraintsOf other := by
  funext name
  rw [constraintsOf, constraintsOf, agree.values_eq "constraint" (by decide)]

theorem parameters_congr {procedure procedure' : Procedure}
    (sameFormals : procedure.parameters = procedure'.parameters) (path method : String)
    (known : KnownModels) :
    ParameterContext.parameters ⟨procedure, tags, path, method, known⟩ =
      ParameterContext.parameters ⟨procedure', other, path, method, known⟩ := by
  have takes : procedure.takes = procedure'.takes := by
    funext name
    rw [Procedure.takes, Procedure.takes, sameFormals]
  have each : ParameterContext.parameter ⟨procedure, tags, path, method, known⟩ =
      ParameterContext.parameter ⟨procedure', other, path, method, known⟩ := by
    funext required value
    simp only [ParameterContext.parameter, ParameterContext.locationOf, takes,
      agree.first?_eq "consumes" (by decide), constraintsOf_congr agree, enumerations_congr agree]
  simp only [ParameterContext.parameters, each, agree.values_eq "parameter" (by decide),
    agree.values_eq "optparameter" (by decide)]

theorem responses_congr (known : KnownModels) : responses tags known = responses other known := by
  have success : successResponse tags known = successResponse other known := by
    funext value
    rw [successResponse, successResponse, agree.values?_eq "emitsHeader" (by decide)]
  rw [responses, responses, writtenResponses, writtenResponses, success,
    agree.first?_eq "default" (by decide), agree.first?_eq "return" (by decide),
    agree.values_eq "errors" (by decide)]

end Operations

theorem ControllerContext.place_congr (context : ControllerContext)
    {procedure procedure' : Procedure} {comment comment' : Comment}
    (sameName : procedure.name = procedure'.name)
    (sameFormals : procedure.parameters = procedure'.parameters)
    (agree : Comment.AgreeOn Comment.procedureTags comment comment') :
    context.place procedure comment = context.place procedure' comment' := by
  have tags := agree.tags
  have path : comment.path = comment'.path := by
    rw [Comment.path, Comment.path, tags.first?_eq "path" (by decide)]
  have method : comment.method = comment'.method := by
    rw [Comment.method, Comment.method, tags.first?_eq "method" (by decide)]
  have produced : context.produced? comment.tags = context.produced? comment'.tags := by
    rw [produced?, produced?, tags.values?_eq "produces" (by decide)]
  rw [place, place, operation, operation, path, method, agree.summary, agree.detail, sameName,
    produced, parameters_congr tags sameFormals, responses_congr tags,
    tags.values?_eq "tag" (by decide), tags.values?_eq "consumes" (by decide),
    tags.values?_eq "security" (by decide)]

/-! ## The general part -/

section General
variable {comment other : Comment} (agree : Comment.AgreeOn Comment.generalTags comment other)
include agree

theorem Info.ofComment_congr : Info.ofComment comment = Info.ofComment other := by
  rw [Info.ofComment, Info.ofComment, agree.summary, agree.detail,
    agree.tags.first?_eq "version" (by decide), agree.tags.first?_eq "termsOfService" (by decide),
    agree.tags.first?_eq "email" (by decide), agree.tags.first?_eq "license" (by decide)]

theorem documentTags_congr : documentTags comment.tags = documentTags other.tags := by
  rw [documentTags, documentTags, tagLinks, tagLinks, agree.tags.values_eq "tag" (by decide),
    agree.tags.values_eq "tagExternalDocs" (by decide)]

theorem Document.assemble_congr (settings : Settings) (definitions : KeyMap Schema)
    (paths : KeyMap (KeyMap Operation)) :
    Document.assemble settings comment definitions paths =
      Document.assemble settings other definitions paths := by
  simp only [Document.assemble, Info.ofComment_congr agree, documentTags_congr agree,
    agree.tags.first?_eq "host" (by decide), agree.tags.first?_eq "basePath" (by decide),
    agree.tags.values_eq "scheme" (by decide), agree.tags.first?_eq "externalDocs" (by decide)]

end General

/-! ## Classes that differ in their comments -/

section Matching
variable (related : List String → String → String → Prop)

structure ModelField.Matches (field other : ModelField) : Prop where
  name : field.name = other.name
  default : field.default = other.default
  comment : related Comment.fieldTags field.comment other.comment

structure Procedure.Matches (procedure other : Procedure) : Prop where
  name : procedure.name = other.name
  declaringClass : procedure.declaringClass = other.declaringClass
  parameters : procedure.parameters = other.parameters
  comment : related Comment.procedureTags procedure.comment other.comment

/-- Two classes that differ in their comments only; each comment is related to the other
under the names that are read in it. -/
structure AnnotatedClass.Matches (cls other : AnnotatedClass) : Prop where
  name : cls.name = other.name
  model : cls.model = other.model
  comment : related Comment.controllerTags cls.comment other.comment
  procedures : List.Forall₂ (Procedure.Matches related) cls.procedures other.procedures
  fields : List.Forall₂ (ModelField.Matches related) cls.fields other.fields

variable {related}

theorem AnnotatedClass.Matches.imp {weaker : List String → String → String → Prop}
    (weaken : ∀ read raw raw', related read raw raw' → weaker read raw raw')
    {cls other : AnnotatedClass} (matching : cls.Matches related other) :
    cls.Matches weaker other where
  name := matching.name
  model := matching.model
  comment := weaken _ _ _ matching.comment
  procedures := matching.procedures.imp fun _ _ same =>
    ⟨same.name, same.declaringClass, same.parameters, weaken _ _ _ same.comment⟩
  fields := matching.fields.imp fun _ _ same =>
    ⟨same.name, same.default, weaken _ _ _ same.comment⟩

end Matching

def ReadAlike (read : List String) (raw other : String) : Prop :=
  Comment.AgreeOn read (Comment.parse raw) (Comment.parse other)

/-! ## Definitions -/

def AnnotatedClass.described (cls : AnnotatedClass) : Bool × List DescribedField :=
  (cls.model, cls.fields.map DescribedField.ofField)

section Definitions
variable {classes classes' : String → Option AnnotatedClass}
  (same : ∀ name, (classes name).map AnnotatedClass.described =
    (classes' name).map AnnotatedClass.described)
include same

theorem map_described_modelClass (modelsNamespace name : String) :
    (modelClass classes modelsNamespace name).map AnnotatedClass.described =
      (modelClass classes' modelsNamespace name).map AnnotatedClass.described := by
  have here := same (qualifiedName modelsNamespace name)
  rw [modelClass, modelClass]
  cases found : classes (qualifiedName modelsNamespace name) with
  | none =>
    rw [found, Option.map_none, eq_comm, Option.map_eq_none_iff] at here
    rw [here]
  | some cls =>
    rw [found, Option.map_some, eq_comm, Option.map_eq_some_iff] at here
    obtain ⟨cls', found', parts⟩ := here
    have flag : cls'.model = cls.model := congrArg Prod.fst parts
    simp only [found', flag]
    by_cases flagged : cls.model = true
    · simp [flagged, parts, Except.map]
    · simp [flagged, Except.map]

theorem namedDefinitions_eq_of_described (modelsNamespace : String) (known : KnownModels)
    (names : List String) :
    namedDefinitions classes modelsNamespace known names =
      namedDefinitions classes' modelsNamespace known names := by
  induction names with
  | nil => rfl
  | cons name rest ih =>
    have described := map_described_modelClass same modelsNamespace name
    rw [namedDefinitions, namedDefinitions, ih]
    cases found : modelClass classes modelsNamespace name with
    | error cause =>
      cases found' : modelClass classes' modelsNamespace name with
      | error cause' =>
        have sameCause : cause = cause' := by simpa [found, found', Except.map] using described
        rw [sameCause]
      | ok model' => simp [found, found', Except.map] at described
    | ok model =>
      cases found' : modelClass classes' modelsNamespace name with
      | error cause' => simp [found, found', Except.map] at described
      | ok model' =>
        have parts : model.described = model'.described := by
          simpa [found, found', Except.map] using described
        have fields : model.fields.map DescribedField.ofField =
            model'.fields.map DescribedField.ofField := congrArg Prod.snd parts
        have sameSchema : definitionSchema known name model = definitionSchema known name model' := by
          rw [definitionSchema, definitionSchema, fields]
        simp only [bind, Except.bind, sameSchema]

end Definitions

/-! ## Whole runs -/

theorem map_eq_map_of_rel {α β : Type} {related : α → α → Prop} {f : α → β} {x y : Option α}
    (both : Option.Rel related x y) (same : ∀ a b, related a b → f a = f b) :
    x.map f = y.map f := by
  cases both with
  | none => rfl
  | some here => exact congrArg some (same _ _ here)

theorem AnnotatedClass.Matches.described_eq {cls other : AnnotatedClass}
    (matching : cls.Matches ReadAlike other) : cls.described = other.described := by
  have fields : ∀ {fields fields' : List ModelField},
      List.Forall₂ (ModelField.Matches ReadAlike) fields fields' →
        fields.map DescribedField.ofField = fields'.map DescribedField.ofField := by
    intro fields fields' all
    induction all with
    | nil => rfl
    | cons first _ ih =>
      rw [List.map_cons, List.map_cons, ih, DescribedField.ofField, DescribedField.ofField,
        first.name, first.default, DescribedField.ofTags_congr first.comment.tags]
  rw [described, described, matching.model, fields matching.fields]

theorem Procedure.Matches.offers_iff {procedure procedure' : Procedure}
    (matching : procedure.Matches ReadAlike procedure') {controller controller' : AnnotatedClass}
    (sameName : controller.name = controller'.name) :
    controller.Offers procedure ↔ controller'.Offers procedure' := by
  rw [AnnotatedClass.Offers, AnnotatedClass.Offers, matching.declaringClass, sameName,
    matching.comment.tags.contains_eq "path" (by decide)]

theorem placedOperations_congr (context : ControllerContext) {controller controller' : AnnotatedClass}
    (sameName : controller.name = controller'.name) {procedures procedures' : List Procedure}
    (matching : List.Forall₂ (Procedure.Matches ReadAlike) procedures procedures') :
    placedOperations context controller procedures =
      placedOperations context controller' procedures' := by
  induction matching with
  | nil => rfl
  | @cons procedure procedure' rest rest' first _ ih =>
    have offersIff := first.offers_iff sameName
    by_cases offers : controller.Offers procedure
    · have method : (Comment.parse procedure.comment).method =
          (Comment.parse procedure'.comment).method := by
        rw [Comment.method, Comment.method, first.comment.tags.first?_eq "method" (by decide)]
      have samePlace := context.place_congr first.name first.parameters first.comment
      rw [placedOperations, placedOperations, documented?_of_offers offers,
        documented?_of_offers (offersIff.1 offers)]
      simp only [ControllerContext.placed_eq, method, samePlace, first.name, ih]
    · have passed : ¬ controller'.Offers procedure' := fun offers' => offers (offersIff.2 offers')
      rw [placedOperations, placedOperations, documented?_of_not_offers offers,
        documented?_of_not_offers passed]
      exact ih

/-- Comments that read alike make one document, or one error. -/
theorem compile_eq_of_matches {classes classes' : String → Option AnnotatedClass}
    (settings : Settings)
    (matching : ∀ name, Option.Rel (AnnotatedClass.Matches ReadAlike) (classes name) (classes' name)) :
    Document.compile classes settings = Document.compile classes' settings := by
  have described : ∀ name, (classes name).map AnnotatedClass.described =
      (classes' name).map AnnotatedClass.described :=
    fun name => map_eq_map_of_rel (matching name) fun _ _ same => same.described_eq
  have found := matching settings.controller
  rw [Document.compile, Document.compile]
  generalize classes settings.controller = controller at found
  generalize classes' settings.controller = controller' at found
  cases found with
  | none => rfl
  | @some controller controller' same =>
    have agree := same.comment
    have definitions := agree.tags.values_eq "definition" (by decide)
    have produces := agree.tags.values_eq "produces" (by decide)
    simp only [Document.ofController, Comment.definitionNames, Comment.knownModels, Comment.context,
      definitions, produces, namedDefinitions_eq_of_described described,
      placedOperations_congr _ same.name same.procedures,
      Document.assemble_congr (agree.mono (List.filter_subset_self _))]

end AnnotatedApi
