import AnnotatedApi.Proofs.Searches
import AnnotatedApi.Proofs.WholeRuns

/-!
# The order of arguments for manifests

Which paths are found depends on the set of the arguments only, and a run on the paths
depends on their components only.  So two runs whose arguments for manifests are the same
values prepare the same output, whatever order directories list their entries in.
-/

set_option autoImplicit false

namespace AnnotatedApi.CommandLine

open MonadAttach (CanReturn)
open LawfulMonadAttach (canReturn_bind_imp' eq_of_canReturn_pure)

variable {m : Type → Type} [Monad m] [LawfulMonad m] [MonadAttach m] [LawfulMonadAttach m]
variable {tree : FileTree}

theorem lists_iff (path : String) (part : Catalogue) :
    Lists tree path part ↔
      ∃ text, tree.text path = .ok text ∧ Catalogue.ofFile path text = .ok part := by
  rw [Lists, readCatalogue, files_text, pure_bind]
  cases read : tree.text path with
  | error cause => simp
  | ok text => cases listed : Catalogue.ofFile path text <;> simp [listed]

/-! ## Paths with the same components -/

section Spelling
variable {path path' : String} (isFile : tree.kind path = .file) (isFile' : tree.kind path' = .file)
  (same : Path.components path = Path.components path')
include isFile isFile' same

/-- The text of a file does not depend on the spelling of its path. -/
theorem text_eq_of_components_eq : tree.text path = tree.text path' := by
  obtain ⟨nonempty, stops, -⟩ := (tree.kind_eq_iff path (by decide)).1 isFile
  obtain ⟨nonempty', stops', -⟩ := (tree.kind_eq_iff path' (by decide)).1 isFile'
  have place := (tree.place_eq_ok_iff path _).2 ⟨nonempty, stops, rfl⟩
  have place' := (tree.place_eq_ok_iff path' _).2 ⟨nonempty', stops', rfl⟩
  rw [FileTree.text, FileTree.text, FileTree.find, FileTree.find, place, place',
    Component.destination_eq_foldl, Component.destination_eq_foldl, same]

theorem Lists.of_components_eq {part : Catalogue} (lists : Lists tree path part) :
    Lists tree path' part := by
  obtain ⟨text, read, listed⟩ := (lists_iff path part).1 lists
  refine (lists_iff path' part).2 ⟨text, ?_, ?_⟩
  · rw [← text_eq_of_components_eq isFile isFile' same, read]
  · have extension : Path.extension? path' = Path.extension? path := by
      rw [Path.extension?, Path.extension?, Path.fileName?, Path.fileName?, same]
    rw [Catalogue.ofFile] at listed ⊢
    rw [extension]
    cases known : (Path.extension? path).bind Notation.ofExtension? with
    | none => simp [known] at listed
    | some written => simpa [known] using listed

end Spelling

theorem Merges.of_components_eq {paths paths' : List String} {merged : Catalogue}
    (merges : Merges tree paths merged) (files : ∀ path ∈ paths, tree.kind path = .file)
    (files' : ∀ path ∈ paths', tree.kind path = .file)
    (same : paths.map Path.components = paths'.map Path.components) :
    Merges tree paths' merged := by
  obtain ⟨parts, all, distinct, whole⟩ := merges
  refine ⟨parts, ?_, distinct, whole⟩
  clear distinct whole
  induction all generalizing paths' with
  | nil =>
    rw [List.map_nil, eq_comm, List.map_eq_nil_iff] at same
    rw [same]
    exact .nil
  | cons lists _ ih =>
    obtain ⟨path', rest', rfl, here, others⟩ := List.map_eq_cons_iff.1 same.symm
    obtain ⟨isFile, files⟩ := List.forall_mem_cons.1 files
    obtain ⟨isFile', files'⟩ := List.forall_mem_cons.1 files'
    exact .cons (lists.of_components_eq isFile isFile' here.symm) (ih files files' others.symm)

theorem mergeFiles_of_components_eq {paths paths' : List String} {catalogue : Catalogue}
    (merged : (mergeFiles tree.files Catalogue.empty paths).run = .ok catalogue)
    (files : ∀ path ∈ paths, tree.kind path = .file)
    (files' : ∀ path ∈ paths', tree.kind path = .file)
    (same : paths.map Path.components = paths'.map Path.components) :
    (mergeFiles tree.files Catalogue.empty paths').run = .ok catalogue := by
  rcases merges_or_fails tree paths with ⟨whole, merges⟩ | ⟨cause, fails⟩
  · rw [mergeFiles_of_merges merges] at merged
    obtain rfl : whole = catalogue := Except.ok.inj merged
    rw [mergeFiles_of_merges (merges.of_components_eq files files' same)]
    rfl
  · rw [mergeFiles_of_fail fails] at merged
    cases merged

/-! ## Runs on files in any order -/

section Shown
variable {files : Files m} (shown : tree.ShownBy files)
include shown

theorem settingsFrom_shown (path : String) :
    GivesOnly (settingsFrom files path) (settingsFrom tree.files path).run := by
  rw [settingsFrom, settingsFrom]
  apply (shown.text path).bind
  rw [files_text, pure_bind]
  cases tree.text path with
  | error cause => exact .pure _
  | ok text =>
    dsimp only
    cases Settings.ofText? text with
    | none => exact .pure _
    | some settings => exact .pure _

theorem fileSettings_shown (options : Options) :
    GivesOnly (fileSettings files options) (fileSettings tree.files options).run := by
  rw [fileSettings, fileSettings]
  cases options.config with
  | some path => exact settingsFrom_shown shown path
  | none =>
    apply (shown.kind _).bind
    rw [files_kind, pure_bind]
    split
    · exact settingsFrom_shown shown _
    · exact .pure _

theorem runSettings_shown (options : Options) :
    GivesOnly (runSettings files options) (runSettings tree.files options).run := by
  rw [runSettings, runSettings]
  apply (fileSettings_shown shown options).bind
  rw [Id.run_bind]
  cases (fileSettings tree.files options).run with
  | error cause => exact .pure _
  | ok settings =>
    dsimp only
    split
    · exact .pure _
    · exact .pure _

theorem readCatalogue_shown (path : String) :
    GivesOnly (readCatalogue files path) (readCatalogue tree.files path).run := by
  rw [readCatalogue, readCatalogue]
  apply (shown.text path).bind
  rw [files_text, pure_bind]
  cases tree.text path with
  | error cause => exact .pure _
  | ok text =>
    dsimp only
    cases Catalogue.ofFile path text with
    | error cause => exact .pure _
    | ok catalogue => exact .pure _

theorem mergeFiles_shown (catalogue : Catalogue) (paths : List String) :
    GivesOnly (mergeFiles files catalogue paths) (mergeFiles tree.files catalogue paths).run := by
  induction paths generalizing catalogue with
  | nil => exact .pure _
  | cons path rest ih =>
    rw [mergeFiles, mergeFiles]
    apply (readCatalogue_shown shown path).bind
    rw [Id.run_bind]
    cases (readCatalogue tree.files path).run with
    | error cause => exact .pure _
    | ok part =>
      dsimp only
      rcases catalogue.merge part with ⟨larger, none | clash⟩
      · exact ih larger
      · exact .pure _

end Shown

section Stages
variable {files : Files m} {options : Options} {output : Prepared}

theorem exists_stages_of_prepare (ran : CanReturn (prepare files options) (.ok output)) :
    ∃ settings format paths catalogue, CanReturn (runSettings files options) (.ok settings) ∧
      Format.ofName options.formatName = .ok format ∧
      CanReturn (manifestPaths files options.manifests) (.ok paths) ∧
      CanReturn (mergeFiles files Catalogue.empty paths) (.ok catalogue) ∧
      rendered settings format catalogue = .ok output := by
  rw [prepare] at ran
  obtain ⟨settings, settled, ran⟩ := canReturn_bind_imp' ran
  cases settings with
  | error cause => cases eq_of_canReturn_pure ran
  | ok settings =>
    dsimp only at ran
    cases known : Format.ofName options.formatName with
    | error unknown => rw [known] at ran; cases eq_of_canReturn_pure ran
    | ok format =>
      rw [known] at ran
      obtain ⟨paths, resolved, ran⟩ := canReturn_bind_imp' ran
      cases paths with
      | error cause => cases eq_of_canReturn_pure ran
      | ok paths =>
        obtain ⟨catalogue, merged, ran⟩ := canReturn_bind_imp' ran
        cases catalogue with
        | error cause => cases eq_of_canReturn_pure ran
        | ok catalogue =>
          exact ⟨settings, format, paths, catalogue, settled, rfl, resolved, merged,
            eq_of_canReturn_pure ran⟩

theorem prepare_givesOnly {settings : Settings} {format : Format} {catalogue : Catalogue}
    (settled : GivesOnly (runSettings files options) (.ok settings))
    (known : Format.ofName options.formatName = .ok format)
    (merged : ∀ result, CanReturn (manifestPaths files options.manifests) result →
      ∃ paths, result = .ok paths ∧
        GivesOnly (mergeFiles files Catalogue.empty paths) (.ok catalogue))
    (made : rendered settings format catalogue = .ok output) :
    GivesOnly (prepare files options) (.ok output) := by
  rw [prepare]
  apply settled.bind
  dsimp only
  rw [known]
  intro result ran
  obtain ⟨found, resolved, ran⟩ := canReturn_bind_imp' ran
  obtain ⟨paths, rfl, merged⟩ := merged found resolved
  refine merged.bind ?_ result ran
  dsimp only
  rw [made]
  exact .pure _

end Stages

section TwoRuns
variable {m' : Type → Type} [Monad m'] [LawfulMonad m'] [MonadAttach m'] [LawfulMonadAttach m']
variable {files : Files m} {files' : Files m'} {arguments arguments' : List String}
variable (wellFormed : tree.WellFormed) (shown : tree.ShownBy files) (shown' : tree.ShownBy files')
  (same : ∀ argument, argument ∈ arguments ↔ argument ∈ arguments')
include wellFormed shown shown' same

/-- If the arguments are the same values and resolve, they resolve to the same components. -/
theorem manifestPaths_agree {paths : List String} {result : Except RunError (List String)}
    (ran : CanReturn (manifestPaths files arguments) (.ok paths))
    (ran' : CanReturn (manifestPaths files' arguments') result) :
    ∃ paths', result = .ok paths' ∧
      paths.map Path.components = paths'.map Path.components ∧
      (paths.map Path.components).Pairwise Path.Precedes ∧
      (∀ path ∈ paths, tree.kind path = .file) ∧ ∀ path ∈ paths', tree.kind path = .file := by
  cases manifestPaths_resolves shown ran with
  | found searchable collects =>
    cases manifestPaths_resolves shown' ran' with
    | refused among unsearchable =>
      exact absurd unsearchable (searchable _ ((same _).2 among) _)
    | @found paths' _ collects' =>
      have sameFound : ∀ path, FindsAny tree arguments' path ↔ FindsAny tree arguments path := by
        intro path
        simp only [FindsAny, same]
      have components := collects.components_eq (collects'.congr sameFound)
      exact ⟨paths', rfl, components, collects.ascending,
        fun path among => (collects.sound path among).isFile wellFormed,
        fun path among => (collects'.sound path among).isFile wellFormed⟩

theorem prepare_agree {options : Options} {output : Prepared}
    (ran : CanReturn (prepare files { options with manifests := arguments }) (.ok output)) :
    GivesOnly (prepare files' { options with manifests := arguments' }) (.ok output) := by
  obtain ⟨settings, format, paths, catalogue, settled, known, resolved, merged, made⟩ :=
    exists_stages_of_prepare ran
  refine prepare_givesOnly ?settled known ?merged made
  case settled =>
    rw [runSettings_shown shown _ _ settled]
    exact runSettings_shown shown' _
  case merged =>
    intro result resolved'
    obtain ⟨paths', rfl, components, -, isFile, isFile'⟩ :=
      manifestPaths_agree wellFormed shown shown' same resolved resolved'
    refine ⟨paths', rfl, ?_⟩
    have whole := (mergeFiles_shown shown _ _ _ merged).symm
    rw [← mergeFiles_of_components_eq whole isFile isFile' components]
    exact mergeFiles_shown shown' _ _

end TwoRuns

/-! ## Whole runs -/

theorem canReturn_run {σ α : Type} (action : StateM σ α) (state : σ) :
    CanReturn action (action.run state).1 :=
  ⟨state, (action.run state).2, rfl⟩

theorem prepare_of_exitCode {given : List String} {options : Options}
    (accepted : Request.ofArguments given = .compile options)
    (succeeded : (run tree given).1.exitCode = 0) :
    ∃ output, (prepare tree.files options).run = .ok output := by
  rcases renders_or_fails tree options with ⟨text, renders⟩ | ⟨cause, fails⟩
  · exact ⟨_, prepare_of_renders renders⟩
  · rw [run_of_fails accepted fails] at succeeded
    cases succeeded

theorem run_of_prepare {given : List String} {options : Options} {output : Prepared}
    (accepted : Request.ofArguments given = .compile options)
    (prepared : (prepare tree.files options).run = .ok output) :
    run tree given =
      (.ofResult ((deliver FileTree.store options.output output).run tree).1,
        ((deliver FileTree.store options.output output).run tree).2) := by
  have prepared : prepare tree.files options = pure (Except.ok output) := prepared
  rw [run, accepted, Request.decide]
  dsimp only
  rw [prepared]
  rfl

/-- Arguments for manifests that are the same values resolve to the same components in strict
order, and if a run with the one list succeeds, a run with the other does the same; each look
at a directory may list its entries in an order of its own. -/
theorem run_of_same_arguments {σ σ' : Type} {files : Files (StateM σ)} {files' : Files (StateM σ')}
    {arguments arguments' : List String} (wellFormed : tree.WellFormed)
    (shown : tree.ShownBy files) (shown' : tree.ShownBy files')
    (same : ∀ argument, argument ∈ arguments ↔ argument ∈ arguments') :
    (∀ state state' paths, ((manifestPaths files arguments).run state).1 = .ok paths →
      ∃ paths', ((manifestPaths files' arguments').run state').1 = .ok paths' ∧
        paths.map Path.components = paths'.map Path.components ∧
        (paths.map Path.components).Pairwise Path.Precedes) ∧
    (∀ state state' (options : Options) output,
      ((prepare files { options with manifests := arguments }).run state).1 = .ok output →
        ((prepare files' { options with manifests := arguments' }).run state').1 = .ok output) ∧
    (∀ given given' (options : Options),
      Request.ofArguments given = .compile { options with manifests := arguments } →
      Request.ofArguments given' = .compile { options with manifests := arguments' } →
      (run tree given).1.exitCode = 0 → run tree given' = run tree given) := by
  refine ⟨?paths, ?outputs, ?runs⟩
  case paths =>
    intro state state' paths resolved
    have ran := canReturn_run (manifestPaths files arguments) state
    rw [resolved] at ran
    obtain ⟨paths', resolved', components, ascending, -⟩ :=
      manifestPaths_agree wellFormed shown shown' same ran (canReturn_run _ state')
    exact ⟨paths', resolved', components, ascending⟩
  case outputs =>
    intro state state' options output prepared
    have ran := canReturn_run (prepare files { options with manifests := arguments }) state
    rw [prepared] at ran
    exact prepare_agree wellFormed shown shown' same ran _ (canReturn_run _ state')
  case runs =>
    intro given given' options accepted accepted' succeeded
    obtain ⟨output, prepared⟩ := prepare_of_exitCode accepted succeeded
    have shownAsIs := tree.shownBy_files
    have prepared' := prepare_agree wellFormed shownAsIs shownAsIs same prepared _ rfl
    rw [run_of_prepare accepted prepared, run_of_prepare accepted' prepared']

/-- Looking at a tree in which every listing is turned around against the one before it. -/
def turningFiles (tree : FileTree) : Files (StateM Bool) where
  kind path := pure (tree.kind path)
  entries path := fun turned =>
    (if turned then (tree.entriesOf path).map List.reverse else tree.entriesOf path, !turned)
  below path := fun turned =>
    (if turned then (tree.below path).reverse else tree.below path, !turned)
  text path := pure (tree.text path)

theorem shownBy_turningFiles (tree : FileTree) : tree.ShownBy (turningFiles tree) where
  kind path := .pure _
  entries path names looked := by
    obtain ⟨turned, next, looked⟩ := looked
    obtain rfl := (congrArg Prod.fst looked).symm
    change SameMembers (tree.entriesOf path) (if turned then _ else _)
    cases turned with
    | false => exact .refl _
    | true =>
      cases tree.entriesOf path with
      | error cause => exact .refl _
      | ok names => exact .listed fun _ => List.mem_reverse.symm
  below path inside looked := by
    obtain ⟨turned, next, looked⟩ := looked
    obtain rfl := (congrArg Prod.fst looked).symm
    intro item
    change item ∈ (if turned then _ else _) ↔ _
    cases turned with
    | false => exact Iff.rfl
    | true => exact List.mem_reverse
  text path := .pure _

def docks : FileTree where
  entries := [(["docks"], .directory),
    (["docks", "crane.json"], .file (some "\x7b\"classes\": [\x7b\"name\": \"Crane\"\x7d]\x7d")),
    (["docks", "quay.json"], .file (some "\x7b\"classes\": [\x7b\"name\": \"Quay\"\x7d]\x7d"))]
  current := []

theorem run_of_same_arguments_docks :
    docks.WellFormed ∧ docks.ShownBy (turningFiles docks) ∧
      ((manifestPaths (turningFiles docks) ["docks", "*/*.json"]).run false).1 =
        .ok ["docks/crane.json", "docks/quay.json"] ∧
      (∃ paths, ((manifestPaths (turningFiles docks) ["*/*.json", "docks", "docks"]).run true).1 =
        .ok paths ∧ paths.map Path.components =
          ["docks/crane.json", "docks/quay.json"].map Path.components) ∧
      (run docks ["-m", "docks", "-m", "*/*.json", "--controller=Quay"]).1.exitCode = 0 ∧
      run docks ["--controller=Quay", "-m*/*.json", "-mdocks", "-mdocks"] =
        run docks ["-m", "docks", "-m", "*/*.json", "--controller=Quay"] := by
  have wellFormed : docks.WellFormed := by decide +kernel
  have shown := shownBy_turningFiles docks
  have same : ∀ argument,
      argument ∈ ["docks", "*/*.json"] ↔ argument ∈ ["*/*.json", "docks", "docks"] := by
    simp [or_comm]
  have resolved : ((manifestPaths (turningFiles docks) ["docks", "*/*.json"]).run false).1 =
      .ok ["docks/crane.json", "docks/quay.json"] := by decide +kernel
  have succeeded :
      (run docks ["-m", "docks", "-m", "*/*.json", "--controller=Quay"]).1.exitCode = 0 := by
    decide +kernel
  obtain ⟨paths, -, runs⟩ := run_of_same_arguments wellFormed shown shown same
  obtain ⟨paths', resolved', components, -⟩ := paths false true _ resolved
  refine ⟨wellFormed, shown, resolved, ⟨paths', resolved', components.symm⟩, succeeded, ?_⟩
  exact runs _ _ { controller := some "Quay" } (by decide +kernel) (by decide +kernel) succeeded

end AnnotatedApi.CommandLine
