import AnnotatedApi.Proofs.DefinitionSets

/-!
# What a controller's comment tells its operations

Of the comment of a controller, its operations read the set of definition names and the
list of what is produced, and the second only where a procedure does not say itself what
it produces.  Past the definitions, two comments with one set of names lead to the same
refusal or to the same operations but for that list.
-/

set_option autoImplicit false

namespace AnnotatedApi

/-! ## Operations but for what they produce -/

def Operation.withoutProduces (operation : Operation) : Operation :=
  { operation with produces := none }

/-- What an operation produces, by the comments of its controller and of its procedure: the
procedure's list if it has one, or else the controller's, of which an empty one is left out. -/
def Produces (controller own : Comment) (produces : Option (List String)) : Prop :=
  (own.tags.contains "produces" = true → produces = some (own.tags.values "produces")) ∧
    (own.tags.contains "produces" = false →
      (produces = none ↔ controller.tags.values "produces" = []) ∧
        ∀ values, produces = some values → values = controller.tags.values "produces")

namespace ControllerContext

theorem produces_operation_place (context : ControllerContext) (procedure : Procedure)
    (own : Comment) :
    (context.place procedure own).operation.produces = context.produced? own.tags := rfl

theorem produces_place (controller own : Comment) (known : KnownModels) (settings : Settings)
    (procedure : Procedure) :
    Produces controller own (place ⟨known, settings, controller.tags.values "produces"⟩
      procedure own).operation.produces := by
  rw [produces_operation_place, produced?, Tags.values?_eq]
  by_cases has : own.tags.contains "produces" = true
  · rw [if_pos has]
    exact ⟨fun _ => rfl, fun hasNot => absurd has (by simp [hasNot])⟩
  · rw [if_neg has]
    refine ⟨fun has' => absurd has' has, fun _ => ?_⟩
    cases controller.tags.values "produces" with
    | nil => simp
    | cons first rest => simp [eq_comm]

section Contexts
variable {known known' : KnownModels} (same : known.typeOf = known'.typeOf)
  (settings : Settings) (produces produces' : List String)
include same

theorem map_place_withoutProduces (procedure : Procedure) (comment : Comment) :
    (place ⟨known, settings, produces⟩ procedure comment).map Operation.withoutProduces =
      (place ⟨known', settings, produces'⟩ procedure comment).map Operation.withoutProduces := by
  rw [place_congr_types same]
  rfl

theorem map_offered_withoutProduces (controller : AnnotatedClass) (procedures : List Procedure) :
    (offered ⟨known, settings, produces⟩ controller procedures).map
        (PlacedOperation.map Operation.withoutProduces) =
      (offered ⟨known', settings, produces'⟩ controller procedures).map
        (PlacedOperation.map Operation.withoutProduces) := by
  simp only [offered, List.map_map, Function.comp_def,
    map_place_withoutProduces same settings produces produces']

end Contexts
end ControllerContext

/-! ## Refusals -/

def GetsPastDefinitions (classes : String → Option AnnotatedClass) (settings : Settings) : Prop :=
  ∀ model, Document.compile classes settings ≠ .error (.missingModel model)

section Pairs
variable {classes classes' : String → Option AnnotatedClass} {settings : Settings}
  {controller controller' : AnnotatedClass} {known known' : KnownModels}
  {definitions definitions' : List (String × Schema)} {placed placed' : List PlacedOperation}
  {document document' : Document}

theorem outcome_of_getsPastDefinitions (found : classes settings.controller = some controller)
    (past : GetsPastDefinitions classes settings) :
    (∃ name method, Document.compile classes settings = .error (.unsupportedMethod name method)) ∨
      ∃ document, Document.compile classes settings = .ok document := by
  cases outcome : Document.compile classes settings with
  | ok document => exact Or.inr ⟨document, rfl⟩
  | error cause =>
    cases (refused_iff classes settings cause).1 outcome with
    | missingController unknown =>
      rw [found] at unknown
      cases unknown
    | missingModel _ _ _ => exact absurd outcome (past _)
    | unsupportedMethod _ _ _ => exact Or.inl ⟨_, _, rfl⟩

theorem unsupportedMethod_congr (bodies : SameBodies classes classes')
    (found : classes settings.controller = some controller)
    (found' : classes' settings.controller = some controller')
    (names : (Comment.parse controller.comment).SameDefinitions (Comment.parse controller'.comment))
    {name method : String}
    (failed : Document.compile classes settings = .error (.unsupportedMethod name method)) :
    Document.compile classes' settings = .error (.unsupportedMethod name method) := by
  have body := bodies.sameBody found found'
  have accepts : settings.Accepts controller = settings.Accepts controller' := by
    funext procedure
    exact propext (Settings.accepts_congr body.name settings procedure)
  cases (refused_iff classes settings _).1 failed with
  | unsupportedMethod isController defined first =>
    obtain rfl := Option.some.inj (found.symm.trans isController)
    refine (refused_iff classes' settings _).2 (.unsupportedMethod found' ?_ ?_)
    · intro other named
      exact (standsForModel_congr bodies _ other).1 (defined other ((names other).2 named))
    · rw [← accepts, ← body.procedures]
      exact first

/-! ## Paths -/

theorem AnnotatedClass.SameBody.lastAt_iff (same : controller.SameBody controller')
    (path method : String) (procedure : Procedure) :
    controller.LastAt path method procedure ↔ controller'.LastAt path method procedure := by
  simp only [LastAt, OffersAt, same.procedures, offers_congr same.name]

namespace Document

theorem withoutProduces_paths_congr (bodies : SameBodies classes classes')
    (names : (Comment.parse controller.comment).SameDefinitions (Comment.parse controller'.comment))
    (stages : Stages classes settings controller known definitions placed document)
    (stages' : Stages classes' settings controller' known' definitions' placed' document') :
    mapOperations Operation.withoutProduces document.paths =
      mapOperations Operation.withoutProduces document'.paths := by
  have body := bodies.sameBody stages.found stages'.found
  rw [stages.paths_eq, stages'.paths_eq, ← groupOperations_map, ← groupOperations_map,
    ControllerContext.offered_congr body.name, body.procedures,
    ControllerContext.map_offered_withoutProduces (typeOf_congr names stages stages')]

theorem Stages.operationAt?_eq_some_iff
    (stages : Stages classes settings controller known definitions placed document)
    (path method : String) (operation : Operation) :
    operationAt? document.paths path method = some operation ↔
      ∃ procedure, controller.LastAt path method procedure ∧
        (ControllerContext.place
          ⟨known, settings, (Comment.parse controller.comment).tags.values "produces"⟩ procedure
          (Comment.parse procedure.comment)).operation = operation := by
  rw [stages.paths_eq, ControllerContext.operationAt?_offered, Option.map_eq_some_iff]
  simp only [AnnotatedClass.lastAt_iff]

theorem Stages.exists_lastAt
    (stages : Stages classes settings controller known definitions placed document)
    {path method : String} {operation : Operation}
    (here : operationAt? document.paths path method = some operation) :
    ∃ procedure, controller.LastAt path method procedure ∧
      Produces (Comment.parse controller.comment) (Comment.parse procedure.comment)
        operation.produces := by
  obtain ⟨procedure, last, rfl⟩ := (stages.operationAt?_eq_some_iff path method operation).1 here
  exact ⟨procedure, last, ControllerContext.produces_place _ _ known settings procedure⟩

theorem Stages.exists_operationAt?
    (stages : Stages classes settings controller known definitions placed document)
    {path method : String} {procedure : Procedure}
    (last : controller.LastAt path method procedure) :
    ∃ operation, operationAt? document.paths path method = some operation ∧
      Produces (Comment.parse controller.comment) (Comment.parse procedure.comment)
        operation.produces := by
  refine ⟨_, (stages.operationAt?_eq_some_iff path method _).2 ⟨procedure, last, rfl⟩, ?_⟩
  exact ControllerContext.produces_place _ _ known settings procedure

/-- A run that gets past the definitions refuses a method, or not, whatever else the comment
of its controller says, and of that comment its operations read what is produced only. -/
theorem compile_apart_from_produces (bodies : SameBodies classes classes')
    (found : classes settings.controller = some controller)
    (found' : classes' settings.controller = some controller')
    (names : (Comment.parse controller.comment).SameDefinitions (Comment.parse controller'.comment))
    (past : GetsPastDefinitions classes settings) :
    (∃ name method, compile classes settings = .error (.unsupportedMethod name method) ∧
      compile classes' settings = .error (.unsupportedMethod name method)) ∨
    ∃ document document', compile classes settings = .ok document ∧
      compile classes' settings = .ok document' ∧
      mapOperations Operation.withoutProduces document.paths =
        mapOperations Operation.withoutProduces document'.paths ∧
      ∀ path method operation, operationAt? document.paths path method = some operation →
        ∃ procedure operation', controller.LastAt path method procedure ∧
          operationAt? document'.paths path method = some operation' ∧
          Produces (Comment.parse controller.comment) (Comment.parse procedure.comment)
            operation.produces ∧
          Produces (Comment.parse controller'.comment) (Comment.parse procedure.comment)
            operation'.produces := by
  have body := bodies.sameBody found found'
  rcases outcome_of_getsPastDefinitions found past with
    ⟨name, method, failed⟩ | ⟨document, compiled⟩
  · exact Or.inl ⟨name, method, failed, unsupportedMethod_congr bodies found found' names failed⟩
  right
  obtain ⟨document', compiled'⟩ := exists_compile_congr bodies found found' names compiled
  obtain ⟨known, definitions, placed, stages⟩ := exists_stages found compiled
  obtain ⟨known', definitions', placed', stages'⟩ := exists_stages found' compiled'
  refine ⟨document, document', compiled, compiled',
    withoutProduces_paths_congr bodies names stages stages', ?_⟩
  intro path method operation here
  obtain ⟨procedure, last, produces⟩ := stages.exists_lastAt here
  obtain ⟨operation', here', produces'⟩ :=
    stages'.exists_operationAt? ((body.lastAt_iff path method procedure).1 last)
  exact ⟨procedure, operation', last, here', produces, produces'⟩

end Document
end Pairs

def gallery : AnnotatedClass where
  name := "Gallery"
  comment := ""
  model := false
  procedures := [
    ⟨"actionHang", "Gallery", [], "@path /frames\n@method post\n@produces text/plain"⟩,
    ⟨"actionFrames", "Gallery", [], "@path /frames\n@method get\n@return Frame[] all of them"⟩]
  fields := []

def frame : AnnotatedClass :=
  { name := "Frame", comment := "", model := true, procedures := [], fields := [] }

def galleryClass? (comment : String) : String → Option AnnotatedClass :=
  recommented (fun name => [gallery, frame].find? fun cls => cls.name = name) "Gallery" comment

def oldGallery : String := "Pictures\n@definition Frame\n@host old.example"

def newGallery : String :=
  "Works\n@produces image/png\n@definition Frame\n@produces text/html\n@definition Frame"

theorem Document.compile_apart_from_produces_gallery :
    ∃ document document' operation operation',
      compile (galleryClass? oldGallery) { controller := "Gallery" } = .ok document ∧
      compile (galleryClass? newGallery) { controller := "Gallery" } = .ok document' ∧
      mapOperations Operation.withoutProduces document.paths =
        mapOperations Operation.withoutProduces document'.paths ∧
      operationAt? document.paths "/frames" "get" = some operation ∧ operation.produces = none ∧
      operationAt? document'.paths "/frames" "get" = some operation' ∧
      operation'.produces = some ["image/png", "text/html"] := by
  have old : (Comment.parse oldGallery).tags =
      [("definition", .single "Frame"), ("host", .single "old.example")] := by
    decide +kernel
  have new : (Comment.parse newGallery).tags =
      [("definition", .multiple ["Frame", "Frame"]),
        ("produces", .multiple ["image/png", "text/html"])] := by
    decide +kernel
  have names : (Comment.parse oldGallery).SameDefinitions (Comment.parse newGallery) := by
    intro name
    rw [old, new]
    change name ∈ ["Frame"] ↔ name ∈ ["Frame", "Frame"]
    simp
  have silent : ∀ procedure ∈ gallery.procedures, gallery.OffersAt "/frames" "get" procedure →
      (Comment.parse procedure.comment).tags.contains "produces" = false := by
    decide +kernel
  have found : galleryClass? oldGallery ({ controller := "Gallery" } : Settings).controller =
      some { gallery with comment := oldGallery } := rfl
  have found' : galleryClass? newGallery ({ controller := "Gallery" } : Settings).controller =
      some { gallery with comment := newGallery } := rfl
  have compiled : ∃ document operation,
      compile (galleryClass? oldGallery) { controller := "Gallery" } = .ok document ∧
        operationAt? document.paths "/frames" "get" = some operation := ⟨_, _, rfl, rfl⟩
  obtain ⟨document, operation, compiled, here⟩ := compiled
  have past : GetsPastDefinitions (galleryClass? oldGallery) { controller := "Gallery" } := by
    intro model
    rw [compiled]
    nofun
  have bodies : SameBodies (galleryClass? oldGallery) (galleryClass? newGallery) :=
    sameBodies_recommented _ "Gallery" oldGallery newGallery
  rcases compile_apart_from_produces bodies found found' names past with
    ⟨name, method, failed, -⟩ | ⟨_, document', isCompiled, compiled', same, each⟩
  · rw [compiled] at failed
    cases failed
  · obtain rfl := Except.ok.inj (compiled.symm.trans isCompiled)
    obtain ⟨procedure, operation', ⟨_, _, split, offers, -⟩, here', produces, produces'⟩ :=
      each "/frames" "get" operation here
    have among : procedure ∈ gallery.procedures := split ▸ by simp
    have told := produces.2 (silent procedure among offers)
    have told' := produces'.2 (silent procedure among offers)
    rw [old] at told
    rw [new] at told'
    refine ⟨document, document', operation, operation', compiled, compiled', same, here,
      told.1.2 rfl, here', ?_⟩
    cases given : operation'.produces with
    | none => exact absurd (told'.1.1 given) (by decide)
    | some values => rw [told'.2 values given]; rfl

end AnnotatedApi
