import AnnotatedApi.Compilation.Basic
import Mathlib.Data.List.Forall2

/-!
# The stages of a compilation

A compilation looks up the controller, then defines its models, then places its
operations, and puts the document together.  Each of the two loops gets one
statement on when it succeeds and with what; `Document.Stages` joins them for a
whole successful run, and every later fact on documents starts from it.
-/

set_option autoImplicit false

namespace AnnotatedApi

/-! ## Definitions -/

section Definitions
variable (classes : String → Option AnnotatedClass) (modelsNamespace : String)

theorem modelClass_eq_ok_iff (name : String) (model : AnnotatedClass) :
    modelClass classes modelsNamespace name = .ok model ↔
      classes (qualifiedName modelsNamespace name) = some model ∧ model.model = true := by
  rw [modelClass]
  cases found : classes (qualifiedName modelsNamespace name) with
  | none => simp
  | some cls =>
    by_cases flagged : cls.model = true
    · simp only [flagged, if_true, Except.ok.injEq, Option.some.injEq]
      exact ⟨fun same => ⟨same, same ▸ flagged⟩, fun both => both.1⟩
    · simp only [if_neg flagged, Option.some.injEq, reduceCtorEq, false_iff]
      rintro ⟨rfl, isModel⟩
      exact flagged isModel

def Defines (known : KnownModels) (name : String) (definition : String × Schema) : Prop :=
  ∃ model, modelClass classes modelsNamespace name = .ok model ∧
    definition = (name, definitionSchema known name model)

theorem namedDefinitions_eq_ok_iff (known : KnownModels) (names : List String)
    (definitions : List (String × Schema)) :
    namedDefinitions classes modelsNamespace known names = .ok definitions ↔
      List.Forall₂ (Defines classes modelsNamespace known) names definitions := by
  induction names generalizing definitions with
  | nil => simp [namedDefinitions, eq_comm]
  | cons name rest ih =>
    rw [namedDefinitions, List.forall₂_cons_left_iff]
    cases found : modelClass classes modelsNamespace name with
    | error cause => simp [Defines, found, bind, Except.bind]
    | ok model =>
      cases others : namedDefinitions classes modelsNamespace known rest with
      | error cause =>
        have none : ∀ tail, ¬ List.Forall₂ (Defines classes modelsNamespace known) rest tail :=
          fun tail all => by rw [(ih tail).2 all] at others; cases others
        simp [bind, Except.bind, none]
      | ok tail =>
        have only : ∀ tail', List.Forall₂ (Defines classes modelsNamespace known) rest tail' ↔
            tail' = tail := fun tail' => by rw [← ih, others, Except.ok.injEq, eq_comm]
        simp [Defines, found, bind, Except.bind, only, eq_comm]

theorem exists_defines_of_mem {known : KnownModels} {names : List String}
    {definitions : List (String × Schema)} {definition : String × Schema}
    (all : List.Forall₂ (Defines classes modelsNamespace known) names definitions)
    (among : definition ∈ definitions) :
    ∃ name ∈ names, Defines classes modelsNamespace known name definition := by
  induction all with
  | nil => cases among
  | cons defines _ ih =>
    rcases List.mem_cons.1 among with rfl | among
    · exact ⟨_, List.mem_cons_self, defines⟩
    · obtain ⟨name, isName, defines⟩ := ih among
      exact ⟨name, List.mem_cons_of_mem _ isName, defines⟩

theorem map_fst_of_defines {known : KnownModels} {names : List String}
    {definitions : List (String × Schema)}
    (all : List.Forall₂ (Defines classes modelsNamespace known) names definitions) :
    definitions.map Prod.fst = names := by
  induction all with
  | nil => rfl
  | cons defines _ ih =>
    obtain ⟨model, -, rfl⟩ := defines
    rw [List.map_cons, ih]

end Definitions

/-! ## Operations -/

/-- A controller offers a procedure if it declares it and its comment has a path. -/
def AnnotatedClass.Offers (controller : AnnotatedClass) (procedure : Procedure) : Prop :=
  procedure.declaringClass = controller.name ∧
    (Comment.parse procedure.comment).tags.contains "path" = true

instance (controller : AnnotatedClass) (procedure : Procedure) :
    Decidable (controller.Offers procedure) :=
  inferInstanceAs (Decidable (_ ∧ _))

theorem documented?_of_offers {controller : AnnotatedClass} {procedure : Procedure}
    (offers : controller.Offers procedure) :
    documented? controller procedure = some (Comment.parse procedure.comment) := by
  rw [documented?, if_pos offers.1]
  exact if_pos offers.2

theorem documented?_of_not_offers {controller : AnnotatedClass} {procedure : Procedure}
    (passed : ¬ controller.Offers procedure) : documented? controller procedure = none := by
  by_cases own : procedure.declaringClass = controller.name
  · have pathless : ¬ (Comment.parse procedure.comment).tags.contains "path" = true :=
      fun path => passed ⟨own, path⟩
    rw [documented?, if_pos own]
    exact if_neg pathless
  · rw [documented?, if_neg own]

def Settings.Accepts (settings : Settings) (controller : AnnotatedClass) (procedure : Procedure) :
    Prop :=
  controller.Offers procedure →
    (Comment.parse procedure.comment).method ∈ settings.supportedMethods

namespace ControllerContext

def offered (context : ControllerContext) (controller : AnnotatedClass)
    (procedures : List Procedure) : List PlacedOperation :=
  (procedures.filter fun procedure => controller.Offers procedure).map fun procedure =>
    context.place procedure (Comment.parse procedure.comment)

theorem placed_eq (context : ControllerContext) (procedure : Procedure) (comment : Comment) :
    context.placed procedure comment =
      if comment.method ∈ context.settings.supportedMethods then
        .ok (context.place procedure comment)
      else .error (.unsupportedMethod procedure.name comment.method) := by
  simp [placed, Settings.supports]

theorem offered_cons (context : ControllerContext) (controller : AnnotatedClass)
    (procedure : Procedure) (rest : List Procedure) :
    context.offered controller (procedure :: rest) =
      if controller.Offers procedure then
        context.place procedure (Comment.parse procedure.comment) ::
          context.offered controller rest
      else context.offered controller rest := by
  by_cases offers : controller.Offers procedure <;> simp [offered, offers]

theorem placedOperations_eq_ok_iff (context : ControllerContext) (controller : AnnotatedClass)
    (procedures : List Procedure) (placed : List PlacedOperation) :
    placedOperations context controller procedures = .ok placed ↔
      (∀ procedure ∈ procedures, context.settings.Accepts controller procedure) ∧
        placed = context.offered controller procedures := by
  induction procedures generalizing placed with
  | nil => simp [placedOperations, offered, eq_comm]
  | cons procedure rest ih =>
    rw [List.forall_mem_cons, offered_cons]
    by_cases offers : controller.Offers procedure
    · rw [placedOperations, documented?_of_offers offers, if_pos offers]
      simp only [placed_eq]
      by_cases supported :
          (Comment.parse procedure.comment).method ∈ context.settings.supportedMethods
      · have accepts : context.settings.Accepts controller procedure := fun _ => supported
        rw [if_pos supported]
        cases others : placedOperations context controller rest with
        | error cause =>
          have fails : ¬ ∀ p ∈ rest, context.settings.Accepts controller p := fun all => by
            rw [(ih _).2 ⟨all, rfl⟩] at others
            cases others
          simp [bind, Except.bind, fails]
        | ok tail =>
          obtain ⟨all, rfl⟩ := (ih tail).1 others
          simp only [bind, Except.bind, Except.ok.injEq]
          exact ⟨fun same => ⟨⟨accepts, all⟩, same.symm⟩, fun both => both.2.symm⟩
      · have refuses : ¬ context.settings.Accepts controller procedure :=
          fun accepts => supported (accepts offers)
        rw [if_neg supported]
        simp [bind, Except.bind, refuses]
    · have accepts : context.settings.Accepts controller procedure :=
        fun offered => absurd offered offers
      rw [placedOperations, documented?_of_not_offers offers, if_neg offers]
      exact (ih placed).trans (and_congr_left' (and_iff_right accepts).symm)

end ControllerContext

/-! ## Whole runs -/

namespace Document

/-- How a document comes about: the names of the definitions are registered, and every
definition and operation of the run is made under the same known models. -/
structure Stages (classes : String → Option AnnotatedClass) (settings : Settings)
    (controller : AnnotatedClass) (known : KnownModels) (definitions : List (String × Schema))
    (placed : List PlacedOperation) (document : Document) : Prop where
  found : classes settings.controller = some controller
  registered :
    known = KnownModels.ofNames ((Comment.parse controller.comment).tags.values "definition")
  defined :
    namedDefinitions classes settings.modelsNamespace known
      ((Comment.parse controller.comment).tags.values "definition") = .ok definitions
  operated :
    placedOperations ⟨known, settings, (Comment.parse controller.comment).tags.values "produces"⟩
      controller controller.procedures = .ok placed
  assembled :
    document = assemble settings (Comment.parse controller.comment)
      (KeyMap.ofList ((envelopeName, envelopeSchema known) :: definitions))
      (groupOperations placed)

theorem compile_eq_ok_iff (classes : String → Option AnnotatedClass) (settings : Settings)
    (document : Document) :
    compile classes settings = .ok document ↔
      ∃ controller known definitions placed,
        Stages classes settings controller known definitions placed document := by
  constructor
  · intro compiled
    rw [compile] at compiled
    cases found : classes settings.controller with
    | none => simp [found] at compiled
    | some controller =>
      simp only [found, ofController] at compiled
      cases defined : namedDefinitions classes settings.modelsNamespace
          (Comment.parse controller.comment).knownModels
          (Comment.parse controller.comment).definitionNames with
      | error cause => simp [defined, bind, Except.bind] at compiled
      | ok definitions =>
        cases operated : placedOperations ((Comment.parse controller.comment).context settings)
            controller controller.procedures with
        | error cause => simp [defined, operated, bind, Except.bind] at compiled
        | ok placed =>
          simp only [defined, operated, bind, Except.bind, Except.ok.injEq] at compiled
          exact ⟨controller, _, definitions, placed, found, rfl, defined, operated, compiled.symm⟩
  · rintro ⟨controller, _, definitions, placed, found, rfl, defined, operated, assembled⟩
    simp [compile, found, ofController, Comment.definitionNames, Comment.knownModels,
      Comment.context, defined, operated, bind, Except.bind, assembled]

namespace Stages

variable {classes : String → Option AnnotatedClass} {settings : Settings}
  {controller : AnnotatedClass} {known : KnownModels} {definitions : List (String × Schema)}
  {placed : List PlacedOperation} {document : Document}

theorem forall₂_defines
    (stages : Stages classes settings controller known definitions placed document) :
    List.Forall₂ (Defines classes settings.modelsNamespace known)
      ((Comment.parse controller.comment).tags.values "definition") definitions :=
  (namedDefinitions_eq_ok_iff _ _ _ _ _).1 stages.defined

theorem placed_eq_offered
    (stages : Stages classes settings controller known definitions placed document) :
    placed = ControllerContext.offered
      ⟨known, settings, (Comment.parse controller.comment).tags.values "produces"⟩ controller
        controller.procedures :=
  ((ControllerContext.placedOperations_eq_ok_iff _ _ _ _).1 stages.operated).2

theorem definitions_eq
    (stages : Stages classes settings controller known definitions placed document) :
    document.definitions =
      KeyMap.ofList ((envelopeName, envelopeSchema known) :: definitions) := by
  rw [stages.assembled]
  rfl

theorem paths_eq
    (stages : Stages classes settings controller known definitions placed document) :
    document.paths = groupOperations (ControllerContext.offered
      ⟨known, settings, (Comment.parse controller.comment).tags.values "produces"⟩ controller
        controller.procedures) := by
  rw [stages.assembled, ← stages.placed_eq_offered]
  rfl

theorem eq_assemble
    (stages : Stages classes settings controller known definitions placed document) :
    document = assemble settings (Comment.parse controller.comment) document.definitions
      document.paths := by
  rw [stages.assembled]
  rfl

end Stages
end Document
end AnnotatedApi
