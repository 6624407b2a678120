import AnnotatedApi.Annotation.Operation
import AnnotatedApi.Document.Basic
import AnnotatedApi.Schema.Model

/-!
# Compiling a document

A controller becomes a document: its comment gives the general part and names
the models to define, its own procedures with a path give the operations.  The
first thing that fails stops the compilation.
-/

set_option autoImplicit false

namespace AnnotatedApi

open Text

/-! ## Failures -/

inductive CompileError where
  | missingController (controller : String)
  | missingModel (model : String)
  | unsupportedMethod (procedure method : String)
deriving DecidableEq, Repr

namespace CompileError

def message : CompileError → String
  | .missingController controller => "controller class " ++ controller ++ " was not found"
  | .missingModel model => "the model definition for " ++ model ++ " was not found"
  | .unsupportedMethod procedure method =>
    "unknown HTTP method specified in " ++ procedure ++ " : " ++ method

/-- The status under which a server would report the failure. -/
def status : CompileError → Nat
  | .missingController _ => 500
  | .missingModel _ | .unsupportedMethod _ _ => 501

end CompileError

/-! ## What the comment of a controller says of the whole interface -/

def ExternalDocs.ofAnnotation (value : String) : ExternalDocs :=
  let (url, description) := twoTokens value
  ⟨description, url⟩

def License.ofAnnotation (value : String) : License :=
  let (url, name) := twoTokens value
  ⟨name, url⟩

def Info.ofComment (comment : Comment) : Info :=
  let tags := comment.tags
  { title := comment.summary
    description := comment.detail
    version := tags.first? "version"
    termsOfService := tags.first? "termsOfService"
    email := tags.first? "email"
    license := (tags.first? "license").map License.ofAnnotation }

def tagLink (value : String) : String × ExternalDocs :=
  let (tag, url, description) := threeTokens value
  (tag, ⟨description, url⟩)

/-- The links of document tags; of two for one tag the later one counts. -/
def tagLinks (tags : Tags) : KeyMap ExternalDocs :=
  KeyMap.ofList ((tags.values "tagExternalDocs").map tagLink)

def DocumentTag.ofAnnotation (links : KeyMap ExternalDocs) (value : String) : DocumentTag :=
  let (name, description) := twoTokens value
  ⟨name, description, KeyMap.get? links name⟩

def documentTags (tags : Tags) : List DocumentTag :=
  (tags.values "tag").map (DocumentTag.ofAnnotation (tagLinks tags))

/-! ## What the comment of a controller says to its operations and models -/

namespace Comment

def definitionNames (comment : Comment) : List String := comment.tags.values "definition"

/-- The models that the type tokens of one run may refer to. -/
def knownModels (comment : Comment) : KnownModels := KnownModels.ofNames comment.definitionNames

def context (comment : Comment) (settings : Settings) : ControllerContext :=
  ⟨comment.knownModels, settings, comment.tags.values "produces"⟩

end Comment

/-! ## Models -/

def namespaceMark : String := "::"

/-- The name of a model class: a name with a namespace stands for itself. -/
def qualifiedName (modelsNamespace name : String) : String :=
  if occursIn namespaceMark.toList name.toList || modelsNamespace.isEmpty then name
  else modelsNamespace ++ namespaceMark ++ name

def modelClass (classes : String → Option AnnotatedClass) (modelsNamespace name : String) :
    Except CompileError AnnotatedClass :=
  let qualified := qualifiedName modelsNamespace name
  match classes qualified with
  | some cls => if cls.model then .ok cls else .error (.missingModel qualified)
  | none => .error (.missingModel qualified)

def definitionSchema (known : KnownModels) (name : String) (model : AnnotatedClass) : Schema :=
  modelSchema name (model.fields.map DescribedField.ofField) known true

def envelopeSchema (known : KnownModels) : Schema :=
  modelSchema envelopeName envelopeFields known false

/-- The definitions in the order of the annotations, up to the first that fails. -/
def namedDefinitions (classes : String → Option AnnotatedClass) (modelsNamespace : String)
    (known : KnownModels) : List String → Except CompileError (List (String × Schema))
  | [] => .ok []
  | name :: rest => do
    let model ← modelClass classes modelsNamespace name
    let definitions ← namedDefinitions classes modelsNamespace known rest
    .ok ((name, definitionSchema known name model) :: definitions)

/-! ## Operations -/

def ControllerContext.placed (context : ControllerContext) (procedure : Procedure)
    (comment : Comment) : Except CompileError PlacedOperation :=
  if context.settings.supports comment.method then .ok (context.place procedure comment)
  else .error (.unsupportedMethod procedure.name comment.method)

/-- The comment of a procedure that becomes an operation: one that the
controller itself declares and that has a path. -/
def documented? (controller : AnnotatedClass) (procedure : Procedure) : Option Comment :=
  if procedure.declaringClass = controller.name then
    let comment := Comment.parse procedure.comment
    if comment.tags.contains "path" then some comment else none
  else none

def placedOperations (context : ControllerContext) (controller : AnnotatedClass) :
    List Procedure → Except CompileError (List PlacedOperation)
  | [] => .ok []
  | procedure :: rest =>
    match documented? controller procedure with
    | none => placedOperations context controller rest
    | some comment => do
      let placed ← context.placed procedure comment
      let others ← placedOperations context controller rest
      .ok (placed :: others)

/-- The operations with one more; it replaces an earlier one of its path and method. -/
def addOperation (paths : KeyMap (KeyMap Operation)) (placed : PlacedOperation) :
    KeyMap (KeyMap Operation) :=
  let methods := (KeyMap.get? paths placed.path).getD []
  KeyMap.insert paths placed.path (KeyMap.insert methods placed.method placed.operation)

def groupOperations (placed : List PlacedOperation) : KeyMap (KeyMap Operation) :=
  placed.foldl addOperation []

/-! ## Documents -/

namespace Document

def assemble (settings : Settings) (comment : Comment) (definitions : KeyMap Schema)
    (paths : KeyMap (KeyMap Operation)) : Document :=
  let tags := comment.tags
  { version := settings.documentVersion
    info := Info.ofComment comment
    host := (tags.first? "host").getD settings.host
    basePath := (tags.first? "basePath").getD settings.basePath
    tags := documentTags tags
    schemes := tags.values "scheme"
    paths, definitions
    securityDefinitions := settings.securityDefinitions
    externalDocs := (tags.first? "externalDocs").map ExternalDocs.ofAnnotation }

def ofController (classes : String → Option AnnotatedClass) (settings : Settings)
    (controller : AnnotatedClass) : Except CompileError Document := do
  let comment := Comment.parse controller.comment
  let known := comment.knownModels
  let definitions ← namedDefinitions classes settings.modelsNamespace known comment.definitionNames
  let placed ← placedOperations (comment.context settings) controller controller.procedures
  .ok (assemble settings comment
    (KeyMap.ofList ((envelopeName, envelopeSchema known) :: definitions))
    (groupOperations placed))

def compile (classes : String → Option AnnotatedClass) (settings : Settings) :
    Except CompileError Document :=
  match classes settings.controller with
  | none => .error (.missingController settings.controller)
  | some controller => ofController classes settings controller

end Document
end AnnotatedApi
