import AnnotatedApi.Proofs.Run

/-!
# When a compilation succeeds, and why it fails

The three conditions of success are said without the compiler: the controller is
known, every definition stands for a model class, and every offered procedure
has a supported method.  `Refused` derives the error of a run that misses one of
them, by the first stage that fails and the first element at which it does.
-/

set_option autoImplicit false

namespace AnnotatedApi

/-! ## The first failure in a list -/

section FirstFailure
variable {α : Type} {good : α → Prop}

def FirstFailure (good : α → Prop) (xs : List α) (x : α) : Prop :=
  ∃ before after, xs = before ++ x :: after ∧ (∀ y ∈ before, good y) ∧ ¬ good x

theorem not_firstFailure_nil (x : α) : ¬ FirstFailure good [] x := by
  rintro ⟨before, after, split, -⟩
  cases before <;> cases split

theorem firstFailure_cons_of_good {y : α} (goodHead : good y) (ys : List α) (x : α) :
    FirstFailure good (y :: ys) x ↔ FirstFailure good ys x := by
  constructor
  · rintro ⟨before, after, split, earlier, bad⟩
    cases before with
    | nil =>
      cases split
      exact absurd goodHead bad
    | cons z before =>
      cases split
      exact ⟨before, after, rfl, fun y among => earlier y (List.mem_cons_of_mem _ among), bad⟩
  · rintro ⟨before, after, rfl, earlier, bad⟩
    exact ⟨y :: before, after, rfl, List.forall_mem_cons.2 ⟨goodHead, earlier⟩, bad⟩

theorem firstFailure_cons_of_bad {y : α} (badHead : ¬ good y) (ys : List α) (x : α) :
    FirstFailure good (y :: ys) x ↔ x = y := by
  constructor
  · rintro ⟨before, after, split, earlier, -⟩
    cases before with
    | nil => cases split; rfl
    | cons z before =>
      cases split
      exact absurd (earlier y List.mem_cons_self) badHead
  · rintro rfl
    exact ⟨[], ys, rfl, by simp, badHead⟩

theorem exists_firstFailure {xs : List α}
    (some : ∃ x ∈ xs, ¬ good x) : ∃ x, FirstFailure good xs x := by
  induction xs with
  | nil => simp at some
  | cons y ys ih =>
    by_cases goodHead : good y
    · have later : ∃ x ∈ ys, ¬ good x := by simpa [goodHead] using some
      obtain ⟨x, first⟩ := ih later
      exact ⟨x, (firstFailure_cons_of_good goodHead ys x).2 first⟩
    · exact ⟨y, (firstFailure_cons_of_bad goodHead ys y).2 rfl⟩

end FirstFailure

/-! ## Models behind definitions -/

/-- `identifier` is the class identifier of a definition: the name itself if it has a
namespace or there is none to put in front, else the name in that namespace. -/
def Identifies (modelsNamespace name identifier : String) : Prop :=
  ("::".toList <:+: name.toList ∨ modelsNamespace = "") ∧ identifier = name ∨
    ¬ ("::".toList <:+: name.toList ∨ modelsNamespace = "") ∧
      identifier = modelsNamespace ++ "::" ++ name

theorem identifies_iff (modelsNamespace name identifier : String) :
    Identifies modelsNamespace name identifier ↔
      identifier = qualifiedName modelsNamespace name := by
  have bare_iff :
      (Text.occursIn namespaceMark.toList name.toList || modelsNamespace.isEmpty) = true ↔
        "::".toList <:+: name.toList ∨ modelsNamespace = "" := by
    rw [Bool.or_eq_true, Text.occursIn_iff, String.isEmpty_iff, namespaceMark]
  rw [Identifies, qualifiedName, ← bare_iff, namespaceMark]
  by_cases bare : (Text.occursIn "::".toList name.toList || modelsNamespace.isEmpty) = true
  · rw [if_pos bare]
    constructor
    · rintro (⟨-, same⟩ | ⟨named, -⟩)
      · exact same
      · exact absurd bare named
    · intro same
      exact Or.inl ⟨bare, same⟩
  · rw [if_neg bare]
    constructor
    · rintro (⟨kept, -⟩ | ⟨-, same⟩)
      · exact absurd kept bare
      · exact same
    · intro same
      exact Or.inr ⟨bare, same⟩

section Definitions
variable (classes : String → Option AnnotatedClass) (modelsNamespace : String)

def StandsForModel (name : String) : Prop :=
  ∃ identifier cls, Identifies modelsNamespace name identifier ∧
    classes identifier = some cls ∧ cls.model = true

theorem standsForModel_iff (name : String) :
    StandsForModel classes modelsNamespace name ↔
      ∃ model, modelClass classes modelsNamespace name = .ok model := by
  simp only [StandsForModel, identifies_iff, modelClass_eq_ok_iff]
  constructor
  · rintro ⟨identifier, cls, rfl, found⟩
    exact ⟨cls, found⟩
  · rintro ⟨cls, found⟩
    exact ⟨_, cls, rfl, found⟩

theorem modelClass_of_not_standsForModel {name : String}
    (missing : ¬ StandsForModel classes modelsNamespace name) :
    modelClass classes modelsNamespace name =
      .error (.missingModel (qualifiedName modelsNamespace name)) := by
  rw [standsForModel_iff] at missing
  rw [modelClass] at missing ⊢
  cases found : classes (qualifiedName modelsNamespace name) with
  | none => rfl
  | some cls =>
    by_cases flagged : cls.model = true
    · simp [found, flagged] at missing
    · simp [flagged]

theorem standsForModel_of_defines {known : KnownModels} {names : List String}
    {definitions : List (String × Schema)}
    (all : List.Forall₂ (Defines classes modelsNamespace known) names definitions) :
    ∀ name ∈ names, StandsForModel classes modelsNamespace name := by
  induction all with
  | nil => simp
  | @cons name _ _ _ defines _ ih =>
    obtain ⟨model, found, -⟩ := defines
    have first := (standsForModel_iff classes modelsNamespace name).2 ⟨model, found⟩
    exact List.forall_mem_cons.2 ⟨first, ih⟩

theorem namedDefinitions_succeeds_iff (known : KnownModels) (names : List String) :
    (∃ definitions, namedDefinitions classes modelsNamespace known names = .ok definitions) ↔
      ∀ name ∈ names, StandsForModel classes modelsNamespace name := by
  simp only [namedDefinitions_eq_ok_iff]
  constructor
  · rintro ⟨definitions, all⟩
    exact standsForModel_of_defines classes modelsNamespace all
  · intro all
    induction names with
    | nil => exact ⟨[], List.Forall₂.nil⟩
    | cons name rest ih =>
      obtain ⟨head, tail⟩ := List.forall_mem_cons.1 all
      obtain ⟨model, found⟩ := (standsForModel_iff classes modelsNamespace name).1 head
      obtain ⟨definitions, others⟩ := ih tail
      exact ⟨_, List.Forall₂.cons ⟨model, found, rfl⟩ others⟩

theorem namedDefinitions_eq_error_iff (known : KnownModels) (names : List String)
    (cause : CompileError) :
    namedDefinitions classes modelsNamespace known names = .error cause ↔
      ∃ name, FirstFailure (StandsForModel classes modelsNamespace) names name ∧
        cause = .missingModel (qualifiedName modelsNamespace name) := by
  induction names with
  | nil => simp [namedDefinitions, not_firstFailure_nil]
  | cons name rest ih =>
    rw [namedDefinitions]
    by_cases stands : StandsForModel classes modelsNamespace name
    · obtain ⟨model, found⟩ := (standsForModel_iff classes modelsNamespace name).1 stands
      simp only [firstFailure_cons_of_good stands, ← ih, found, bind, Except.bind]
      cases namedDefinitions classes modelsNamespace known rest <;> simp
    · simp [firstFailure_cons_of_bad stands, bind, Except.bind, eq_comm,
        modelClass_of_not_standsForModel classes modelsNamespace stands]

end Definitions

/-! ## Methods of offered procedures -/

namespace ControllerContext

theorem placedOperations_eq_error_iff (context : ControllerContext) (controller : AnnotatedClass)
    (procedures : List Procedure) (cause : CompileError) :
    placedOperations context controller procedures = .error cause ↔
      ∃ procedure, FirstFailure (context.settings.Accepts controller) procedures procedure ∧
        cause = .unsupportedMethod procedure.name (Comment.parse procedure.comment).method := by
  induction procedures with
  | nil => simp [placedOperations, not_firstFailure_nil]
  | cons procedure rest ih =>
    by_cases accepts : context.settings.Accepts controller procedure
    · simp only [firstFailure_cons_of_good accepts, ← ih]
      by_cases offers : controller.Offers procedure
      · rw [placedOperations, documented?_of_offers offers]
        simp only [placed_eq, if_pos (accepts offers), bind, Except.bind]
        cases placedOperations context controller rest <;> simp
      · rw [placedOperations, documented?_of_not_offers offers]
    · obtain ⟨offers, unsupported⟩ := Classical.not_imp.1 accepts
      rw [placedOperations, documented?_of_offers offers]
      simp [placed_eq, unsupported, firstFailure_cons_of_bad accepts, bind, Except.bind, eq_comm]

end ControllerContext

/-! ## Whole runs -/

section Runs
variable (classes : String → Option AnnotatedClass) (settings : Settings)

def Compilable : Prop :=
  ∃ controller, classes settings.controller = some controller ∧
    (∀ name ∈ (Comment.parse controller.comment).tags.values "definition",
      StandsForModel classes settings.modelsNamespace name) ∧
    ∀ procedure ∈ controller.procedures, settings.Accepts controller procedure

/-- The errors of a run: a later stage is reached only if the earlier ones succeed. -/
inductive Refused : CompileError → Prop
  | missingController (unknown : classes settings.controller = none) :
      Refused (.missingController settings.controller)
  | missingModel {controller : AnnotatedClass} {name identifier : String}
      (found : classes settings.controller = some controller)
      (first : FirstFailure (StandsForModel classes settings.modelsNamespace)
        ((Comment.parse controller.comment).tags.values "definition") name)
      (identifies : Identifies settings.modelsNamespace name identifier) :
      Refused (.missingModel identifier)
  | unsupportedMethod {controller : AnnotatedClass} {procedure : Procedure}
      (found : classes settings.controller = some controller)
      (defined : ∀ name ∈ (Comment.parse controller.comment).tags.values "definition",
        StandsForModel classes settings.modelsNamespace name)
      (first : FirstFailure (settings.Accepts controller) controller.procedures procedure) :
      Refused (.unsupportedMethod procedure.name (Comment.parse procedure.comment).method)

theorem compilable_iff :
    (∃ document, Document.compile classes settings = .ok document) ↔
      Compilable classes settings := by
  simp only [Document.compile_eq_ok_iff]
  constructor
  · rintro ⟨document, controller, known, definitions, placed, found, -, defined, operated, -⟩
    refine ⟨controller, found, ?_, ?_⟩
    · exact (namedDefinitions_succeeds_iff _ _ _ _).1 ⟨definitions, defined⟩
    · exact ((ControllerContext.placedOperations_eq_ok_iff _ _ _ _).1 operated).1
  · rintro ⟨controller, found, stand, accepted⟩
    obtain ⟨definitions, defined⟩ := (namedDefinitions_succeeds_iff classes
      settings.modelsNamespace (Comment.parse controller.comment).knownModels _).2 stand
    have operated := (ControllerContext.placedOperations_eq_ok_iff
      ((Comment.parse controller.comment).context settings) controller controller.procedures _).2
        ⟨accepted, rfl⟩
    exact ⟨_, controller, _, definitions, _, found, rfl, defined, operated, rfl⟩

theorem refused_iff (cause : CompileError) :
    Document.compile classes settings = .error cause ↔ Refused classes settings cause := by
  constructor
  · intro failed
    rw [Document.compile] at failed
    cases found : classes settings.controller with
    | none =>
      simp only [found, Except.error.injEq] at failed
      exact failed ▸ .missingController found
    | some controller =>
      simp only [found, Document.ofController] at failed
      cases defined : namedDefinitions classes settings.modelsNamespace
          (Comment.parse controller.comment).knownModels
          (Comment.parse controller.comment).definitionNames with
      | error missing =>
        simp only [defined, bind, Except.bind, Except.error.injEq] at failed
        obtain ⟨name, first, rfl⟩ := (namedDefinitions_eq_error_iff _ _ _ _ _).1 defined
        exact failed ▸ .missingModel found first ((identifies_iff _ _ _).2 rfl)
      | ok definitions =>
        have stand := (namedDefinitions_succeeds_iff _ _ _ _).1 ⟨definitions, defined⟩
        cases operated : placedOperations ((Comment.parse controller.comment).context settings)
            controller controller.procedures with
        | ok placed => simp [defined, operated, bind, Except.bind] at failed
        | error unsupported =>
          simp only [defined, operated, bind, Except.bind, Except.error.injEq] at failed
          obtain ⟨procedure, first, rfl⟩ :=
            (ControllerContext.placedOperations_eq_error_iff _ _ _ _).1 operated
          exact failed ▸ .unsupportedMethod found stand first
  · intro refused
    cases refused with
    | missingController unknown => simp [Document.compile, unknown]
    | @missingModel controller name identifier found first identifies =>
      have defined := (namedDefinitions_eq_error_iff classes settings.modelsNamespace
        (Comment.parse controller.comment).knownModels _ _).2 ⟨name, first, rfl⟩
      rw [(identifies_iff _ _ _).1 identifies, Document.compile, found]
      simp [Document.ofController, Comment.definitionNames, defined, bind, Except.bind]
    | @unsupportedMethod controller procedure found stand first =>
      obtain ⟨definitions, defined⟩ := (namedDefinitions_succeeds_iff classes
        settings.modelsNamespace (Comment.parse controller.comment).knownModels _).2 stand
      have operated := (ControllerContext.placedOperations_eq_error_iff
        ((Comment.parse controller.comment).context settings) controller controller.procedures _).2
          ⟨procedure, first, rfl⟩
      rw [Document.compile, found]
      simp [Document.ofController, Comment.definitionNames, defined, operated, bind, Except.bind]

/-- Success and the error of every run.  A procedure that is inherited or has no path is
accepted whatever its method is, so the last part has it in no error. -/
theorem compile_outcome :
    ((∃ document, Document.compile classes settings = .ok document) ↔
      Compilable classes settings) ∧
    (∀ cause, Document.compile classes settings = .error cause ↔ Refused classes settings cause) ∧
    (∀ name method, Document.compile classes settings = .error (.unsupportedMethod name method) →
      ∃ controller, classes settings.controller = some controller ∧
        ∃ procedure ∈ controller.procedures,
          procedure.declaringClass = controller.name ∧
          (Comment.parse procedure.comment).tags.contains "path" = true ∧
          procedure.name = name ∧ (Comment.parse procedure.comment).method = method ∧
          method ∉ settings.supportedMethods) := by
  refine ⟨compilable_iff classes settings, refused_iff classes settings, ?_⟩
  intro name method failed
  have refused := (refused_iff classes settings _).1 failed
  cases refused with
  | @unsupportedMethod controller procedure found _ first =>
    obtain ⟨before, after, split, -, bad⟩ := first
    obtain ⟨offers, unsupported⟩ := Classical.not_imp.1 bad
    have among : procedure ∈ controller.procedures := by simp [split]
    exact ⟨controller, found, procedure, among, offers.1, offers.2, rfl, rfl, unsupported⟩

end Runs
end AnnotatedApi
