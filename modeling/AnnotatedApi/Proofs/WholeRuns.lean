import AnnotatedApi.Proofs.FileChanges
import AnnotatedApi.Proofs.Stages

/-!
# What a run shows and changes

A run whose stages do not all succeed shows the first failure and leaves the tree as it
is.  Otherwise it prints its text, or puts it into one file and prints nothing.
-/

set_option autoImplicit false

namespace AnnotatedApi.CommandLine

open FileTree

section Runs
variable {tree : FileTree} {arguments : List String} {options : Options}

theorem Fails.unique {cause other : RunError} (fails : Fails tree options cause)
    (failsToo : Fails tree options other) : other = cause := by
  have same := (prepare_of_fails failsToo).symm.trans (prepare_of_fails fails)
  exact Except.error.inj same

theorem Renders.unique {text other : String} (renders : Renders tree options text)
    (rendersToo : Renders tree options other) : other = text := by
  have same := (prepare_of_renders rendersToo).symm.trans (prepare_of_renders renders)
  exact congrArg Prepared.text (Except.ok.inj same)

theorem Renders.not_fails {text : String} (renders : Renders tree options text) (cause : RunError) :
    ¬ Fails tree options cause := by
  intro fails
  have same := (prepare_of_renders renders).symm.trans (prepare_of_fails fails)
  cases same

variable (accepted : Request.ofArguments arguments = .compile options)
include accepted

theorem run_of_fails {cause : RunError} (fails : Fails tree options cause) :
    run tree arguments = (.failed cause, tree) := by
  rw [run, accepted, Request.decide]
  dsimp only
  rw [prepare_of_fails fails]
  rfl

theorem run_of_renders {text : String} (renders : Renders tree options text) :
    run tree arguments =
      (.ofResult ((deliver store options.output ⟨text, "json"⟩).run tree).1,
        ((deliver store options.output ⟨text, "json"⟩).run tree).2) := by
  rw [run, accepted, Request.decide]
  dsimp only
  rw [prepare_of_renders renders]
  rfl

/-- A run that fails, at whatever stage, prints nothing and changes no file. -/
theorem run_failed {outcome : Outcome} {later : FileTree}
    (ran : run tree arguments = (outcome, later)) (failed : outcome.exitCode ≠ 0) :
    outcome.printed = "" ∧ ∀ place text,
      later.entryAt place = some (.file text) ↔ tree.entryAt place = some (.file text) := by
  rcases renders_or_fails tree options with ⟨rendered, renders⟩ | ⟨cause, fails⟩
  · rw [run_of_renders accepted renders] at ran
    cases isTarget : options.output with
    | none =>
      rw [isTarget] at ran
      cases ran
      exact absurd rfl failed
    | some target =>
      rw [isTarget] at ran
      rcases delivered : (deliver store (some target) ⟨rendered, "json"⟩).run tree with
        ⟨result, changed⟩
      rw [delivered] at ran
      cases ran
      cases result with
      | ok printed => exact absurd rfl failed
      | error cause =>
        have adds := deliver_target_error delivered
        refine ⟨rfl, fun place text => ?_⟩
        rcases adds.entries place with kept | ⟨-, missing, made⟩
        · rw [kept]
        · simp [missing, made]
  · rw [run_of_fails accepted fails] at ran
    cases ran
    exact ⟨rfl, fun _ _ => Iff.rfl⟩

/-- A run either fails at its first stage that does not succeed, with nothing changed and
nothing printed, or renders its document; that it prints, or writes to one file. -/
theorem run_all_or_nothing :
    (∀ cause, Fails tree options cause →
      run tree arguments = (⟨1, "", some ("error: " ++ cause.message)⟩, tree)) ∧
    (∀ text, Renders tree options text → options.output = none →
      run tree arguments = (⟨0, text, none⟩, tree)) ∧
    (∀ text target, Renders tree options text → options.output = some target →
      ∀ outcome later, run tree arguments = (outcome, later) → outcome.exitCode = 0 →
        outcome = ⟨0, "", none⟩ ∧
          WritesFile (tree.OnOutputWay target) (tree.outputPlace target) text tree later) ∧
    ((∃! text, Renders tree options text) ∧ (∀ cause, ¬ Fails tree options cause) ∨
      (∃! cause, Fails tree options cause) ∧ ∀ text, ¬ Renders tree options text) := by
  refine ⟨fun cause fails => run_of_fails accepted fails, ?printed, ?written, ?stages⟩
  case printed =>
    intro text renders unasked
    rw [run_of_renders accepted renders, unasked]
    rfl
  case written =>
    intro text target renders isTarget outcome later ran succeeded
    rw [run_of_renders accepted renders, isTarget] at ran
    rcases delivered : (deliver store (some target) ⟨text, "json"⟩).run tree with ⟨result, changed⟩
    rw [delivered] at ran
    cases ran
    cases result with
    | error cause => cases succeeded
    | ok printed =>
      obtain ⟨rfl, writes⟩ := deliver_target_ok rfl delivered
      exact ⟨rfl, writes⟩
  case stages =>
    rcases renders_or_fails tree options with ⟨text, renders⟩ | ⟨cause, fails⟩
    · exact Or.inl ⟨⟨text, renders, fun _ => renders.unique⟩, renders.not_fails⟩
    · exact Or.inr ⟨⟨cause, fails, fun _ => fails.unique⟩,
        fun _ renders => renders.not_fails cause fails⟩

end Runs
def pond : FileTree where
  entries := [(["work"], .directory), (["work", "notes"], .file none),
    (["work", "pond.json"], .file (some "\x7b\"classes\": [\x7b\"name\": \"Pond\"\x7d]\x7d"))]
  current := ["work"]

def pondArguments : List String := ["-mpond.json", "--controller=Pond", "-o", "../api/v1/"]

def pondOptions : Options :=
  { manifests := ["pond.json"], controller := some "Pond", output := some "../api/v1/" }

theorem run_all_or_nothing_pond :
    Request.ofArguments pondArguments = .compile pondOptions ∧
      ∃ text later, Renders pond pondOptions text ∧
        run pond pondArguments = (⟨0, "", none⟩, later) ∧
        pond.entryAt ["api"] = none ∧ later.entryAt ["api"] = some .directory ∧
        later.entryAt ["api", "v1", "swagger.json"] = some (.file (some text)) ∧
        later.entryAt ["work", "notes"] = some (.file none) := by
  have accepted : Request.ofArguments pondArguments = .compile pondOptions := by decide +kernel
  have succeeded : (run pond pondArguments).1.exitCode = 0 := by decide +kernel
  have place : pond.outputPlace "../api/v1/" = ["api", "v1", "swagger.json"] := by decide +kernel
  have way : Path.stops pond.current "../api/v1/" = [["work"], [], ["api"], ["api", "v1"]] := by
    decide +kernel
  have destination : Path.destination pond.current "../api/v1/" = ["api", "v1"] := by decide +kernel
  obtain ⟨failed, -, written, stages⟩ := @run_all_or_nothing pond _ _ accepted
  generalize run pond pondArguments = ran at succeeded failed written ⊢
  obtain ⟨outcome, later⟩ := ran
  rcases stages with ⟨⟨text, renders, -⟩, -⟩ | ⟨⟨cause, fails, -⟩, -⟩
  · obtain ⟨rfl, writes⟩ := written text "../api/v1/" renders rfl outcome later rfl succeeded
    have leads := writes.leads ["api"] (Or.inl (by simp [way]))
    have notes := writes.others ["work", "notes"] (by simp [place])
      (by simp [OnOutputWay, way, destination])
    have file := writes.written
    rw [place] at file
    exact ⟨accepted, text, later, renders, rfl, by decide, leads, file, notes⟩
  · cases failed cause fails
    cases succeeded

end AnnotatedApi.CommandLine
