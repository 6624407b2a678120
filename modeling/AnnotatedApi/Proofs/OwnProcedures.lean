import AnnotatedApi.Proofs.Paths
import AnnotatedApi.Proofs.ReadTags

/-!
# Own procedures and the paths they serve

A catalogue fills in the declaring classes that its classes leave out, so a
controller's own procedures are told from its given class alone.  The last of
them at a place is the operation there.
-/

set_option autoImplicit false

namespace AnnotatedApi

/-! ## Procedures as they are given -/

/-- A given procedure of a controller is its own, the declaring class left out or its
name, and its comment has the path first and the method first. -/
def ServesAt (controller path method : String) (procedure : Procedure) : Prop :=
  (procedure.declaringClass = "" ∨ procedure.declaringClass = controller) ∧
    (Comment.parse procedure.comment).tags.first? "path" = some path ∧
    (Comment.parse procedure.comment).method = method

instance (controller path method : String) (procedure : Procedure) :
    Decidable (ServesAt controller path method procedure) :=
  inferInstanceAs (Decidable (_ ∧ _ ∧ _))

@[simp] theorem Procedure.comment_declaredIn (owner : String) (procedure : Procedure) :
    (procedure.declaredIn owner).comment = procedure.comment := by
  rw [Procedure.declaredIn]
  split <;> rfl

theorem Procedure.declaringClass_declaredIn_eq_iff (owner : String) (procedure : Procedure) :
    (procedure.declaredIn owner).declaringClass = owner ↔
      procedure.declaringClass = "" ∨ procedure.declaringClass = owner := by
  rw [Procedure.declaredIn]
  by_cases missing : procedure.declaringClass = ""
  · simp [missing]
  · simp [missing]

theorem first?_path_eq_some_iff (comment : Comment) (path : String) :
    comment.tags.first? "path" = some path ↔
      comment.tags.contains "path" = true ∧ path = comment.path := by
  rw [Comment.path, Tags.first?, Tags.contains, KeyMap.contains, Tags.find?]
  cases KeyMap.get? comment.tags "path" <;> simp [eq_comm]

theorem servesAt_iff (given : AnnotatedClass) (path method : String) (procedure : Procedure) :
    ServesAt given.name path method procedure ↔
      given.completed.Offers (procedure.declaredIn given.name) ∧
        path = (Comment.parse procedure.comment).path ∧
        method = (Comment.parse procedure.comment).method := by
  rw [ServesAt, AnnotatedClass.Offers, AnnotatedClass.name_completed,
    Procedure.declaringClass_declaredIn_eq_iff, Procedure.comment_declaredIn,
    first?_path_eq_some_iff]
  constructor
  · rintro ⟨own, ⟨hasPath, samePath⟩, sameMethod⟩
    exact ⟨⟨own, hasPath⟩, samePath, sameMethod.symm⟩
  · rintro ⟨⟨own, hasPath⟩, samePath, sameMethod⟩
    exact ⟨own, ⟨hasPath, samePath⟩, sameMethod.symm⟩

/-! ## The last procedure at a place -/

namespace ControllerContext

def placeGiven (context : ControllerContext) (owner : String) (procedure : Procedure) :
    PlacedOperation :=
  context.place (procedure.declaredIn owner) (Comment.parse procedure.comment)

theorem operationAt?_offered_completed (context : ControllerContext) (given : AnnotatedClass)
    (procedures : List Procedure) (path method : String) :
    operationAt? (groupOperations (context.offered given.completed
        (procedures.map (·.declaredIn given.name)))) path method =
      (procedures.filter fun procedure => ServesAt given.name path method procedure).getLast?.map
        fun procedure => (context.placeGiven given.name procedure).operation := by
  have same : ∀ procedure : Procedure, decide (given.completed.OffersAt path method
      (procedure.declaredIn given.name)) = decide (ServesAt given.name path method procedure) := by
    intro procedure
    rw [decide_eq_decide, servesAt_iff, AnnotatedClass.OffersAt, Procedure.comment_declaredIn]
  rw [operationAt?_offered, List.filter_map, List.getLast?_map, Option.map_map]
  simp only [Function.comp_def, same, placeGiven, Procedure.comment_declaredIn]

end ControllerContext

/-! ## Definitions do not depend on procedures -/

def AnnotatedClass.modelPart (cls : AnnotatedClass) : Bool × List ModelField :=
  (cls.model, cls.fields)

theorem namedDefinitions_congr {classes classes' : String → Option AnnotatedClass}
    (same : ∀ name, (classes name).map AnnotatedClass.modelPart =
      (classes' name).map AnnotatedClass.modelPart) (modelsNamespace : String)
    (known : KnownModels) (names : List String) :
    namedDefinitions classes modelsNamespace known names =
      namedDefinitions classes' modelsNamespace known names := by
  have described : AnnotatedClass.described =
      (fun part => (part.1, part.2.map DescribedField.ofField)) ∘ AnnotatedClass.modelPart := rfl
  apply namedDefinitions_eq_of_described
  intro name
  rw [described, ← Option.map_map, ← Option.map_map, same]

theorem Catalogue.map_modelPart_find? (catalogue : Catalogue) (name : String) :
    (catalogue.find? name).map AnnotatedClass.modelPart =
      ((catalogue.classes.map fun cls => (cls.name, cls.modelPart)).find?
        fun part => part.1 == name).map Prod.snd := by
  rw [Catalogue.find?_eq_search, List.find?_map, Option.map_map]
  rfl

/-! ## Documents of given classes -/

theorem ControllerContext.placed_of_servesAt {context : ControllerContext} {given : AnnotatedClass}
    {path method : String} {procedure : Procedure}
    (accepts : context.settings.Accepts given.completed (procedure.declaredIn given.name))
    (serves : ServesAt given.name path method procedure) :
    context.placed (procedure.declaredIn given.name) (Comment.parse procedure.comment) =
      .ok ⟨path, method, (context.placeGiven given.name procedure).operation⟩ := by
  obtain ⟨offers, samePath, sameMethod⟩ := (servesAt_iff given path method procedure).1 serves
  have supported := accepts offers
  rw [Procedure.comment_declaredIn] at supported
  rw [placed_eq, if_pos supported, placeGiven, samePath, sameMethod]
  rfl

section Documents
variable {settings : Settings} {given : AnnotatedClass} {procedures : List Procedure}
  {front back : List AnnotatedClass} {catalogue : Catalogue} {lookup : String → Option AnnotatedClass}
  {known : KnownModels} {definitions : List (String × Schema)} {placed : List PlacedOperation}
  {document : Document}

/-- Two lists of given procedures have the same procedures at every place, in the same
order.  A reordering that keeps the order of those with one path and method is such. -/
def SameAtPlaces (controller : String) (procedures procedures' : List Procedure) : Prop :=
  ∀ path method,
    (procedures'.filter fun procedure => ServesAt controller path method procedure) =
      procedures.filter fun procedure => ServesAt controller path method procedure

theorem groupOperations_offered_congr (context : ControllerContext)
    {procedures' : List Procedure} (same : SameAtPlaces given.name procedures procedures') :
    groupOperations (context.offered given.completed
        (procedures'.map (·.declaredIn given.name))) =
      groupOperations (context.offered given.completed
        (procedures.map (·.declaredIn given.name))) := by
  refine paths_ext (wellKept_groupOperations _) (wellKept_groupOperations _) fun path method => ?_
  rw [context.operationAt?_offered_completed, context.operationAt?_offered_completed,
    same path method]

theorem accepts_of_sameAtPlaces {procedures' : List Procedure}
    (same : SameAtPlaces given.name procedures procedures')
    (accepted : ∀ procedure ∈ procedures.map (·.declaredIn given.name),
      settings.Accepts given.completed procedure) :
    ∀ procedure ∈ procedures'.map (·.declaredIn given.name),
      settings.Accepts given.completed procedure := by
  intro declared among offers
  obtain ⟨procedure, isProcedure, rfl⟩ := List.mem_map.1 among
  have serves := (servesAt_iff given _ _ procedure).2 ⟨offers, rfl, rfl⟩
  have atPlace : procedure ∈ procedures.filter fun other => ServesAt given.name
      (Comment.parse procedure.comment).path (Comment.parse procedure.comment).method other := by
    rw [← same]
    exact List.mem_filter.2 ⟨isProcedure, by simpa using serves⟩
  exact accepted _ (List.mem_map_of_mem (List.mem_filter.1 atPlace).1) offers

theorem exists_given_of_find? {classes : List AnnotatedClass}
    {controller : AnnotatedClass} {name : String}
    (accepted : Catalogue.ofClasses classes = .ok catalogue)
    (found : catalogue.find? name = some controller) :
    ∃ front given back, classes = front ++ given :: back ∧ given.name = name ∧
      controller = given.completed := by
  obtain ⟨given, among, sameName, isCompleted⟩ :=
    (Catalogue.find?_eq_some_iff accepted name controller).1 found
  obtain ⟨front, back, split⟩ := List.append_of_mem among
  exact ⟨front, given, back, split, sameName, isCompleted⟩

def AnnotatedClass.withProcedures (given : AnnotatedClass) (procedures : List Procedure) :
    AnnotatedClass :=
  { given with procedures := procedures }

theorem exists_ofClasses_withProcedures
    (accepted : Catalogue.ofClasses (front ++ given :: back) = .ok catalogue)
    (procedures : List Procedure) :
    ∃ catalogue', Catalogue.ofClasses (front ++ given.withProcedures procedures :: back) =
      .ok catalogue' := by
  obtain ⟨distinct, -⟩ := (Catalogue.ofClasses_eq_ok_iff _ _).1 accepted
  refine (Catalogue.exists_ofClasses_iff _).2 ?_
  simpa [AnnotatedClass.withProcedures] using distinct

theorem map_modelPart_find?_withProcedures {procedures : List Procedure} {catalogue' : Catalogue}
    (accepted : Catalogue.ofClasses (front ++ given :: back) = .ok catalogue)
    (accepted' : Catalogue.ofClasses (front ++ given.withProcedures procedures :: back) =
      .ok catalogue') (name : String) :
    (catalogue.find? name).map AnnotatedClass.modelPart =
      (catalogue'.find? name).map AnnotatedClass.modelPart := by
  rw [Catalogue.map_modelPart_find?, Catalogue.map_modelPart_find?,
    ((Catalogue.ofClasses_eq_ok_iff _ _).1 accepted).2,
    ((Catalogue.ofClasses_eq_ok_iff _ _).1 accepted').2]
  simp [AnnotatedClass.withProcedures, AnnotatedClass.completed, AnnotatedClass.modelPart]

theorem stages_withProcedures {procedures' : List Procedure} {catalogue' : Catalogue}
    (accepted : Catalogue.ofClasses (front ++ given :: back) = .ok catalogue)
    (accepted' : Catalogue.ofClasses (front ++ given.withProcedures procedures' :: back) =
      .ok catalogue')
    (stages : Document.Stages catalogue.find? settings given.completed known definitions placed
      document)
    (sameName : given.name = settings.controller)
    (same : SameAtPlaces given.name given.procedures procedures') :
    Document.Stages catalogue'.find? settings (given.withProcedures procedures').completed known
      definitions
      (ControllerContext.offered
        ⟨known, settings, (Comment.parse given.comment).tags.values "produces"⟩ given.completed
        (procedures'.map (·.declaredIn given.name))) document := by
  have accepts := ((ControllerContext.placedOperations_eq_ok_iff _ _ _ _).1 stages.operated).1
  constructor
  case found =>
    refine (Catalogue.find?_eq_some_iff accepted' _ _).2 ?_
    exact ⟨given.withProcedures procedures', by simp, sameName, rfl⟩
  case registered => exact stages.registered
  -- A definition may name the controller itself, but reads nothing of its procedures.
  case defined =>
    rw [← namedDefinitions_congr (map_modelPart_find?_withProcedures accepted accepted')]
    exact stages.defined
  case operated =>
    refine (ControllerContext.placedOperations_eq_ok_iff _ _ _ _).2 ⟨?_, rfl⟩
    exact accepts_of_sameAtPlaces same accepts
  case assembled =>
    rw [stages.assembled, stages.placed_eq_offered]
    exact congrArg _ (groupOperations_offered_congr _ same).symm

theorem paths_eq_of_stages
    (stages : Document.Stages lookup settings given.completed known definitions placed document) :
    document.paths = groupOperations
      (((Comment.parse given.comment).context settings).offered given.completed
        (given.procedures.map (·.declaredIn given.name))) := by
  rw [stages.paths_eq, stages.registered]
  rfl

theorem accepts_of_stages
    (stages : Document.Stages lookup settings given.completed known definitions placed document)
    {procedure : Procedure} (among : procedure ∈ given.procedures) :
    settings.Accepts given.completed (procedure.declaredIn given.name) :=
  ((ControllerContext.placedOperations_eq_ok_iff _ _ _ _).1 stages.operated).1 _
    (List.mem_map_of_mem among)

theorem operationAt?_of_stages
    (stages : Document.Stages lookup settings given.completed known definitions placed document)
    (path method : String) :
    operationAt? document.paths path method =
      (given.procedures.filter fun procedure =>
        ServesAt given.name path method procedure).getLast?.map fun procedure =>
          (((Comment.parse given.comment).context settings).placeGiven given.name
            procedure).operation := by
  rw [paths_eq_of_stages stages, ControllerContext.operationAt?_offered_completed]

theorem exists_operationAt?_iff
    (stages : Document.Stages lookup settings given.completed known definitions placed document)
    (path method : String) :
    (∃ operation, operationAt? document.paths path method = some operation) ↔
      ∃ procedure ∈ given.procedures, ServesAt given.name path method procedure := by
  simp only [operationAt?_of_stages stages, Option.map_eq_some_iff]
  constructor
  · rintro ⟨_, procedure, isLast, -⟩
    obtain ⟨among, serves⟩ := List.mem_filter.1 (List.mem_of_getLast? isLast)
    exact ⟨procedure, among, by simpa using serves⟩
  · rintro ⟨procedure, among, serves⟩
    have nonempty : (given.procedures.filter fun other =>
        ServesAt given.name path method other) ≠ [] :=
      List.ne_nil_of_mem (List.mem_filter.2 ⟨among, by simpa using serves⟩)
    exact ⟨_, _, List.getLast?_eq_some_getLast nonempty, rfl⟩

theorem operationAt?_eq_some_iff
    (stages : Document.Stages lookup settings given.completed known definitions placed document)
    (path method : String) (operation : Operation) :
    operationAt? document.paths path method = some operation ↔
      ∃ before procedure after, given.procedures = before ++ procedure :: after ∧
        ServesAt given.name path method procedure ∧
        (∀ later ∈ after, ¬ ServesAt given.name path method later) ∧
        ((Comment.parse given.comment).context settings).placed
          (procedure.declaredIn given.name) (Comment.parse procedure.comment) =
            .ok ⟨path, method, operation⟩ := by
  rw [operationAt?_of_stages stages, Option.map_eq_some_iff]
  simp only [getLast?_filter_eq_some_iff]
  constructor
  · rintro ⟨procedure, ⟨before, after, split, serves, later⟩, rfl⟩
    have among : procedure ∈ given.procedures := by simp [split]
    exact ⟨before, procedure, after, split, serves, later,
      ControllerContext.placed_of_servesAt (accepts_of_stages stages among) serves⟩
  · rintro ⟨before, procedure, after, split, serves, later, isPlaced⟩
    have among : procedure ∈ given.procedures := by simp [split]
    rw [ControllerContext.placed_of_servesAt (accepts_of_stages stages among) serves] at isPlaced
    exact ⟨procedure, ⟨before, after, split, serves, later⟩,
      congrArg PlacedOperation.operation (Except.ok.inj isPlaced)⟩

/-- The operations of a document are those of its controller's own procedures, at every
place the last one, whatever else the controller lists and in whatever order of places. -/
theorem paths_of_own_procedures {classes : List AnnotatedClass}
    (accepted : Catalogue.ofClasses classes = .ok catalogue)
    (compiled : Document.compile catalogue.find? settings = .ok document) :
    ∃ front given back, classes = front ++ given :: back ∧ given.name = settings.controller ∧
      (∀ path method,
        (∃ operation, operationAt? document.paths path method = some operation) ↔
          ∃ procedure ∈ given.procedures, ServesAt given.name path method procedure) ∧
      (∀ path method operation,
        operationAt? document.paths path method = some operation ↔
          ∃ before procedure after, given.procedures = before ++ procedure :: after ∧
            ServesAt given.name path method procedure ∧
            (∀ later ∈ after, ¬ ServesAt given.name path method later) ∧
            ((Comment.parse given.comment).context settings).placed
              (procedure.declaredIn given.name) (Comment.parse procedure.comment) =
                .ok ⟨path, method, operation⟩) ∧
      (∀ path methods, (path, methods) ∈ document.paths → methods ≠ []) ∧
      (∀ procedures', SameAtPlaces given.name given.procedures procedures' →
        ∃ catalogue',
          Catalogue.ofClasses (front ++ given.withProcedures procedures' :: back) =
            .ok catalogue' ∧
          Document.compile catalogue'.find? settings = .ok document) := by
  obtain ⟨controller, known, definitions, placed, stages⟩ :=
    (Document.compile_eq_ok_iff _ _ _).1 compiled
  obtain ⟨front, given, back, rfl, sameName, rfl⟩ := exists_given_of_find? accepted stages.found
  refine ⟨front, given, back, rfl, sameName, exists_operationAt?_iff stages,
    operationAt?_eq_some_iff stages, ?_, ?_⟩
  · intro path methods among
    rw [paths_eq_of_stages stages] at among
    exact ((wellKept_groupOperations _).2 path methods among).1
  · intro procedures' same
    obtain ⟨catalogue', accepted'⟩ := exists_ofClasses_withProcedures accepted procedures'
    exact ⟨catalogue', accepted', (Document.compile_eq_ok_iff _ _ _).2
      ⟨_, _, _, _, stages_withProcedures accepted accepted' stages sameName same⟩⟩

end Documents

def lodge : AnnotatedClass where
  name := "Lodge"
  comment := "Rooms"
  model := false
  procedures := [
    ⟨"actionOld", "", [], "Old rooms\n@path /rooms\n@method get"⟩,
    ⟨"actionBook", "Lodge", [], "Booking\n@path /rooms\n@method post"⟩,
    ⟨"actionBrew", "Kitchen", [], "Brewing\n@path /tea\n@method brew"⟩,
    ⟨"actionNew", "", [], "New rooms\n@path /rooms\n@method get"⟩]
  fields := []

theorem paths_of_own_procedures_lodge :
    ∃ catalogue document, Catalogue.ofClasses [lodge] = .ok catalogue ∧
      Document.compile catalogue.find? { controller := "Lodge" } = .ok document ∧
      (operationAt? document.paths "/rooms" "get").map (·.summary) = some "New rooms" ∧
      ∀ path method, (∃ operation, operationAt? document.paths path method = some operation) ↔
        ∃ procedure ∈ lodge.procedures, ServesAt "Lodge" path method procedure := by
  have compiled : ∃ catalogue document, Catalogue.ofClasses [lodge] = .ok catalogue ∧
      Document.compile catalogue.find? { controller := "Lodge" } = .ok document ∧
      (operationAt? document.paths "/rooms" "get").map (·.summary) = some "New rooms" :=
    ⟨_, _, rfl, rfl, rfl⟩
  obtain ⟨catalogue, document, accepted, compiled, newest⟩ := compiled
  obtain ⟨front, given, back, split, -, served, -⟩ := paths_of_own_procedures accepted compiled
  have isLodge : given = lodge := by
    have among : given ∈ [lodge] := by simp [split]
    exact List.mem_singleton.1 among
  rw [isLodge] at served
  exact ⟨catalogue, document, accepted, compiled, newest, served⟩

end AnnotatedApi
