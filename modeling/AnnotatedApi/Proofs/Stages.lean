import AnnotatedApi.CommandLine.Run
import AnnotatedApi.Proofs.Merging
import Mathlib.Data.List.Induction

/-!
# The stages of a run

What each stage of a run makes and why it fails, said without the run.  `Fails`
puts the failures in the order of the stages: each one needs what the earlier
stages make.
-/

set_option autoImplicit false

namespace AnnotatedApi

namespace CommandLine

/-! ## Settings -/

section Settings
variable (tree : FileTree) (options : Options)

/-- The file of the settings: the one that is asked for, or else the default one if it is there. -/
def SettingsFile (path : String) : Prop :=
  options.config = some path ∨
    options.config = none ∧ path = defaultSettingsPath ∧ tree.kind path = .file

inductive WrittenSettings : Settings → Prop
  | ofFile {path text : String} {settings : Settings} (file : SettingsFile tree options path)
      (read : tree.text path = .ok text) (understood : Settings.ofText? text = some settings) :
      WrittenSettings settings
  | default (none : ∀ path, ¬ SettingsFile tree options path) : WrittenSettings {}

def HasSettings (settings : Settings) : Prop :=
  ∃ written, WrittenSettings tree options written ∧ settings = options.override written ∧
    settings.controller ≠ ""

inductive SettingsFail : RunError → Prop
  | unread {path : String} {cause : FileError} (file : SettingsFile tree options path)
      (refused : tree.text path = .error cause) : SettingsFail (.settingsUnread path cause)
  | malformed {path text : String} (file : SettingsFile tree options path)
      (read : tree.text path = .ok text) (strange : Settings.ofText? text = none) :
      SettingsFail (.settingsMalformed path)
  | noController {written : Settings} (given : WrittenSettings tree options written)
      (anonymous : (options.override written).controller = "") : SettingsFail .noController

end Settings

section Files
variable {tree : FileTree} {options : Options}

theorem files_kind (tree : FileTree) (path : String) :
    tree.files.kind path = pure (tree.kind path) := rfl

theorem files_text (tree : FileTree) (path : String) :
    tree.files.text path = pure (tree.text path) := rfl

theorem fileSettings_of_file {path : String} (file : SettingsFile tree options path) :
    fileSettings tree.files options = settingsFrom tree.files path := by
  rcases file with asked | ⟨unasked, rfl, there⟩
  · rw [fileSettings, asked]
  · rw [fileSettings, unasked]
    dsimp only
    rw [files_kind, there, pure_bind]
    exact if_pos rfl

theorem fileSettings_of_no_file (none : ∀ path, ¬ SettingsFile tree options path) :
    fileSettings tree.files options = pure (.ok {}) := by
  have unasked : options.config = Option.none := by
    cases asked : options.config with
    | none => rfl
    | some path => exact absurd (Or.inl asked) (none path)
  have absent : ¬ (tree.kind defaultSettingsPath == Kind.file) = true := by
    intro there
    exact none _ (Or.inr ⟨unasked, rfl, beq_iff_eq.1 there⟩)
  rw [fileSettings, unasked]
  dsimp only
  rw [files_kind, pure_bind]
  exact if_neg absent

theorem settingsFrom_of_unread {path : String} {cause : FileError}
    (refused : tree.text path = .error cause) :
    settingsFrom tree.files path = pure (.error (.settingsUnread path cause)) := by
  rw [settingsFrom, files_text, refused, pure_bind]

theorem settingsFrom_of_understood {path text : String} {settings : Settings}
    (read : tree.text path = .ok text) (understood : Settings.ofText? text = some settings) :
    settingsFrom tree.files path = pure (.ok settings) := by
  rw [settingsFrom, files_text, read, pure_bind]
  dsimp only
  rw [understood]

theorem settingsFrom_of_strange {path text : String} (read : tree.text path = .ok text)
    (strange : Settings.ofText? text = none) :
    settingsFrom tree.files path = pure (.error (.settingsMalformed path)) := by
  rw [settingsFrom, files_text, read, pure_bind]
  dsimp only
  rw [strange]

theorem fileSettings_of_written {written : Settings} (given : WrittenSettings tree options written) :
    fileSettings tree.files options = pure (.ok written) := by
  cases given with
  | ofFile file read understood =>
    rw [fileSettings_of_file file, settingsFrom_of_understood read understood]
  | default none => exact fileSettings_of_no_file none

theorem runSettings_of_has {settings : Settings} (has : HasSettings tree options settings) :
    runSettings tree.files options = pure (.ok settings) := by
  obtain ⟨written, given, rfl, named⟩ := has
  rw [runSettings, fileSettings_of_written given, pure_bind]
  dsimp only
  rw [if_neg (by simpa using named)]

theorem runSettings_of_fail {cause : RunError} (fail : SettingsFail tree options cause) :
    runSettings tree.files options = pure (.error cause) := by
  cases fail with
  | unread file refused =>
    rw [runSettings, fileSettings_of_file file, settingsFrom_of_unread refused, pure_bind]
  | malformed file read strange =>
    rw [runSettings, fileSettings_of_file file, settingsFrom_of_strange read strange, pure_bind]
  | noController given anonymous =>
    rw [runSettings, fileSettings_of_written given, pure_bind]
    dsimp only
    rw [if_pos (by simpa using anonymous)]

end Files

theorem hasSettings_or_fail (tree : FileTree) (options : Options) :
    (∃ settings, HasSettings tree options settings) ∨ ∃ cause, SettingsFail tree options cause := by
  have named : ∀ written, WrittenSettings tree options written →
      (∃ settings, HasSettings tree options settings) ∨ ∃ cause, SettingsFail tree options cause := by
    intro written given
    by_cases anonymous : (options.override written).controller = ""
    · exact Or.inr ⟨_, .noController given anonymous⟩
    · exact Or.inl ⟨_, written, given, rfl, anonymous⟩
  by_cases file : ∃ path, SettingsFile tree options path
  · obtain ⟨path, file⟩ := file
    cases read : tree.text path with
    | error cause => exact Or.inr ⟨_, .unread file read⟩
    | ok text =>
      cases understood : Settings.ofText? text with
      | none => exact Or.inr ⟨_, .malformed file read understood⟩
      | some settings => exact named settings (.ofFile file read understood)
  · exact named {} (.default (not_exists.1 file))

/-! ## Finding manifests -/

section Search
variable (tree : FileTree)

def Leads (argument : String) (paths : List String) : Prop :=
  (pathsOf tree.files argument).run = .ok paths

def FindsPaths (arguments paths : List String) : Prop :=
  ∃ found, List.Forall₂ (Leads tree) arguments found ∧
    paths = found.flatten.foldl (fun sorted path => insertPath path sorted) []

/-- An argument leads nowhere, and those before it do not fail. -/
def SearchFails (arguments : List String) (cause : RunError) : Prop :=
  ∃ before argument after, arguments = before ++ argument :: after ∧
    (∀ earlier ∈ before, ∃ paths, Leads tree earlier paths) ∧
    (pathsOf tree.files argument).run = .error cause

variable {tree}

theorem collectPaths_of_leads {argument : String} {paths : List String}
    (leads : Leads tree argument paths) (sorted rest : List String) :
    collectPaths tree.files sorted (argument :: rest) =
      collectPaths tree.files
        (paths.foldl (fun sorted path => insertPath path sorted) sorted) rest := by
  have found : pathsOf tree.files argument = pure (Except.ok paths) := leads
  rw [collectPaths, found, pure_bind]

theorem collectPaths_of_all_lead {arguments : List String} {found : List (List String)}
    (all : List.Forall₂ (Leads tree) arguments found) (sorted : List String) :
    collectPaths tree.files sorted arguments =
      pure (.ok (found.flatten.foldl (fun sorted path => insertPath path sorted) sorted)) := by
  induction all generalizing sorted with
  | nil => rfl
  | cons leads _ ih => rw [collectPaths_of_leads leads, ih, List.flatten_cons, List.foldl_append]

theorem manifestPaths_of_finds {arguments paths : List String}
    (finds : FindsPaths tree arguments paths) :
    manifestPaths tree.files arguments = pure (.ok paths) := by
  obtain ⟨found, all, rfl⟩ := finds
  exact collectPaths_of_all_lead all []

theorem manifestPaths_of_fail {arguments : List String} {cause : RunError}
    (fails : SearchFails tree arguments cause) :
    manifestPaths tree.files arguments = pure (.error cause) := by
  obtain ⟨before, argument, after, rfl, earlier, refused⟩ := fails
  have collected : ∀ sorted, collectPaths tree.files sorted (before ++ argument :: after) =
      pure (.error cause) := by
    induction before with
    | nil =>
      intro sorted
      have found : pathsOf tree.files argument = pure (Except.error cause) := refused
      rw [List.nil_append, collectPaths, found, pure_bind]
    | cons first before ih =>
      intro sorted
      obtain ⟨⟨paths, leads⟩, others⟩ := List.forall_mem_cons.1 earlier
      rw [List.cons_append, collectPaths_of_leads leads]
      exact ih others _
  exact collected []

theorem findsPaths_or_fails (tree : FileTree) (arguments : List String) :
    (∃ paths, FindsPaths tree arguments paths) ∨ ∃ cause, SearchFails tree arguments cause := by
  have all : (∃ found, List.Forall₂ (Leads tree) arguments found) ∨
      ∃ cause, SearchFails tree arguments cause := by
    induction arguments with
    | nil => exact Or.inl ⟨[], .nil⟩
    | cons argument rest ih =>
      cases here : (pathsOf tree.files argument).run with
      | error cause => exact Or.inr ⟨cause, [], argument, rest, rfl, by simp, here⟩
      | ok paths =>
        rcases ih with ⟨found, others⟩ | ⟨cause, before, failing, after, rfl, earlier, refused⟩
        · exact Or.inl ⟨paths :: found, .cons here others⟩
        · exact Or.inr ⟨cause, argument :: before, failing, after, rfl,
            List.forall_mem_cons.2 ⟨⟨paths, here⟩, earlier⟩, refused⟩
  rcases all with ⟨found, all⟩ | fails
  · exact Or.inl ⟨_, found, all, rfl⟩
  · exact Or.inr fails

end Search

/-! ## Merging manifests -/

section Merging
variable (tree : FileTree)

def Lists (path : String) (part : Catalogue) : Prop :=
  (readCatalogue tree.files path).run = .ok part

/-- The classes of all manifests, whose names are distinct, are those of the catalogue. -/
def Merges (paths : List String) (catalogue : Catalogue) : Prop :=
  ∃ parts, List.Forall₂ (Lists tree) paths parts ∧
    ((parts.flatMap (·.classes)).map (·.name)).Nodup ∧
    catalogue.classes = (parts.flatMap (·.classes)).map (·.completed)

/-- The first manifest that cannot be read, or that lists a class of an earlier one. -/
inductive MergeFails (paths : List String) : RunError → Prop
  | unread {before after : List String} {path : String} {merged : Catalogue} {cause : RunError}
      (split : paths = before ++ path :: after) (earlier : Merges tree before merged)
      (refused : (readCatalogue tree.files path).run = .error cause) : MergeFails paths cause
  | duplicate {before after : List String} {path : String} {merged part : Catalogue}
      {cls : AnnotatedClass}
      (split : paths = before ++ path :: after) (earlier : Merges tree before merged)
      (listed : Lists tree path part)
      (first : FirstFailure (fun cls => cls.name ∉ merged.names) part.classes cls) :
      MergeFails paths (.duplicate ⟨cls.name⟩)

variable {tree}

theorem Merges.empty (tree : FileTree) : Merges tree [] Catalogue.empty :=
  ⟨[], .nil, List.nodup_nil, rfl⟩

theorem mergeFiles_of_lists {path : String} {part : Catalogue} (listed : Lists tree path part)
    (catalogue : Catalogue) (rest : List String) :
    mergeFiles tree.files catalogue (path :: rest) =
      match catalogue.merge part with
      | (larger, none) => mergeFiles tree.files larger rest
      | (_, some clash) => pure (.error (.duplicate clash)) := by
  have read : readCatalogue tree.files path = pure (Except.ok part) := listed
  rw [mergeFiles, read]
  rfl

theorem mergeFiles_append {before : List String} {parts : List Catalogue}
    (all : List.Forall₂ (Lists tree) before parts) {catalogue larger : Catalogue}
    (added : catalogue.addAll (parts.flatMap (·.classes)) = (larger, none)) (rest : List String) :
    mergeFiles tree.files catalogue (before ++ rest) = mergeFiles tree.files larger rest := by
  induction all generalizing catalogue with
  | nil =>
    cases added
    rfl
  | @cons path part before parts listed _ ih =>
    rw [List.flatMap_cons, Catalogue.addAll_append] at added
    rw [List.cons_append, mergeFiles_of_lists listed, Catalogue.merge]
    generalize catalogue.addAll part.classes = merged at added ⊢
    obtain ⟨next, clash⟩ := merged
    cases clash with
    | none => exact ih added
    | some clash => cases added

theorem Merges.addAll {before : List String} {merged : Catalogue}
    (merges : Merges tree before merged) :
    ∃ parts, List.Forall₂ (Lists tree) before parts ∧
      Catalogue.empty.addAll (parts.flatMap (·.classes)) = (merged, none) := by
  obtain ⟨parts, all, distinct, whole⟩ := merges
  exact ⟨parts, all, (Catalogue.addAll_eq_none_iff _ _ _).2
    ⟨distinct, fun _ _ => List.not_mem_nil, whole⟩⟩

theorem Merges.mergeFiles_append {before : List String} {merged : Catalogue}
    (merges : Merges tree before merged) (rest : List String) :
    mergeFiles tree.files Catalogue.empty (before ++ rest) = mergeFiles tree.files merged rest := by
  obtain ⟨parts, all, added⟩ := merges.addAll
  exact CommandLine.mergeFiles_append all added rest

theorem mergeFiles_of_merges {paths : List String} {merged : Catalogue}
    (merges : Merges tree paths merged) :
    mergeFiles tree.files Catalogue.empty paths = pure (.ok merged) := by
  have whole := merges.mergeFiles_append []
  rwa [List.append_nil] at whole

theorem mergeFiles_of_fail {paths : List String} {cause : RunError}
    (fails : MergeFails tree paths cause) :
    mergeFiles tree.files Catalogue.empty paths = pure (.error cause) := by
  cases fails with
  | @unread before after path merged cause split earlier refused =>
    have read : readCatalogue tree.files path = pure (Except.error cause) := refused
    rw [split, earlier.mergeFiles_append, mergeFiles, read, pure_bind]
  | @duplicate before after path merged part cls split earlier listed first =>
    obtain ⟨front, back, isFirst, free, taken⟩ := first
    have clash := (Catalogue.merge_of_taken isFirst free (not_not.1 taken)).1
    rw [split, earlier.mergeFiles_append, mergeFiles_of_lists listed]
    generalize merged.merge part = outcome at clash ⊢
    obtain ⟨larger, found⟩ := outcome
    obtain rfl : found = some ⟨cls.name⟩ := clash
    rfl

theorem Merges.snoc {front : List String} {merged : Catalogue} (merges : Merges tree front merged)
    {path : String} {part : Catalogue} (listed : Lists tree path part)
    (free : ∀ cls ∈ part.classes, cls.name ∉ merged.names) :
    ∃ larger, Merges tree (front ++ [path]) larger := by
  obtain ⟨parts, all, -, whole⟩ := merges
  have grown : (merged.merge part).1.classes =
      ((parts ++ [part]).flatMap (·.classes)).map (·.completed) := by
    rw [(Catalogue.merge_of_free free).2, whole, List.flatMap_append, List.flatMap_singleton,
      List.map_append]
  refine ⟨_, parts ++ [part], List.rel_append all (.cons listed .nil), ?_, grown⟩
  have distinct := (merged.merge part).1.nodup_names
  rw [Catalogue.names, grown, List.map_map] at distinct
  exact distinct

theorem MergeFails.append {front : List String} {cause : RunError}
    (fails : MergeFails tree front cause) (path : String) :
    MergeFails tree (front ++ [path]) cause := by
  cases fails with
  | unread split earlier refused =>
    rw [split, List.append_assoc]
    exact .unread rfl earlier refused
  | duplicate split earlier listed first =>
    rw [split, List.append_assoc]
    exact .duplicate rfl earlier listed first

theorem merges_or_fails (tree : FileTree) (paths : List String) :
    (∃ merged, Merges tree paths merged) ∨ ∃ cause, MergeFails tree paths cause := by
  -- From the end: what was merged or failed before the last path stands as it is.
  induction paths using List.reverseRecOn with
  | nil => exact Or.inl ⟨_, Merges.empty tree⟩
  | append_singleton front path ih =>
    rcases ih with ⟨merged, merges⟩ | ⟨cause, fails⟩
    · cases read : (readCatalogue tree.files path).run with
      | error cause => exact Or.inr ⟨cause, .unread rfl merges read⟩
      | ok part =>
        rcases merged.merge_cases part with
          ⟨free, -, -⟩ | ⟨earlier, cls, later, split, free, taken, -, -⟩
        · exact Or.inl (merges.snoc read free)
        · have first : FirstFailure (fun cls => cls.name ∉ merged.names) part.classes cls :=
            ⟨earlier, later, split, free, not_not.2 taken⟩
          exact Or.inr ⟨_, .duplicate rfl merges read first⟩
    · exact Or.inr ⟨cause, fails.append path⟩

end Merging

/-! ## The stages in their order -/

section Order
variable (tree : FileTree) (options : Options)

/-- The failures of a run before its output is ready; a document that is made can always be
rendered. -/
inductive Fails : RunError → Prop
  | settings {cause : RunError} (fails : SettingsFail tree options cause) : Fails cause
  | format {settings : Settings} {unknown : UnknownFormat}
      (has : HasSettings tree options settings)
      (refused : Format.ofName options.formatName = .error unknown) :
      Fails (.unknownFormat unknown)
  | search {settings : Settings} {format : Format} {cause : RunError}
      (has : HasSettings tree options settings)
      (known : Format.ofName options.formatName = .ok format)
      (fails : SearchFails tree options.manifests cause) : Fails cause
  | merge {settings : Settings} {format : Format} {paths : List String} {cause : RunError}
      (has : HasSettings tree options settings)
      (known : Format.ofName options.formatName = .ok format)
      (finds : FindsPaths tree options.manifests paths)
      (fails : MergeFails tree paths cause) : Fails cause
  | compilation {settings : Settings} {format : Format} {paths : List String}
      {catalogue : Catalogue} {cause : CompileError}
      (has : HasSettings tree options settings)
      (known : Format.ofName options.formatName = .ok format)
      (finds : FindsPaths tree options.manifests paths)
      (merges : Merges tree paths catalogue)
      (refused : Document.compile catalogue.find? settings = .error cause) :
      Fails (.compilation cause)

def Renders (text : String) : Prop :=
  ∃ settings format paths catalogue document,
    HasSettings tree options settings ∧
    Format.ofName options.formatName = .ok format ∧
    FindsPaths tree options.manifests paths ∧
    Merges tree paths catalogue ∧
    Document.compile catalogue.find? settings = .ok document ∧
    text = format.render document

theorem renders_or_fails :
    (∃ text, Renders tree options text) ∨ ∃ cause, Fails tree options cause := by
  rcases hasSettings_or_fail tree options with ⟨settings, has⟩ | ⟨cause, fails⟩
  case inr => exact Or.inr ⟨cause, .settings fails⟩
  cases known : Format.ofName options.formatName with
  | error unknown => exact Or.inr ⟨_, .format has known⟩
  | ok format =>
    rcases findsPaths_or_fails tree options.manifests with ⟨paths, finds⟩ | ⟨cause, fails⟩
    case inr => exact Or.inr ⟨cause, .search has known fails⟩
    rcases merges_or_fails tree paths with ⟨catalogue, merges⟩ | ⟨cause, fails⟩
    case inr => exact Or.inr ⟨cause, .merge has known finds fails⟩
    cases compiled : Document.compile catalogue.find? settings with
    | error cause => exact Or.inr ⟨_, .compilation has known finds merges compiled⟩
    | ok document =>
      exact Or.inl ⟨_, settings, format, paths, catalogue, document, has, known, finds, merges,
        compiled, rfl⟩

variable {tree options}

theorem prepare_of_settings {settings : Settings} (has : HasSettings tree options settings)
    {format : Format} (known : Format.ofName options.formatName = .ok format) :
    prepare tree.files options = (do
      match ← manifestPaths tree.files options.manifests with
      | .error cause => pure (.error cause)
      | .ok paths =>
        match ← mergeFiles tree.files Catalogue.empty paths with
        | .error cause => pure (.error cause)
        | .ok catalogue => pure (rendered settings format catalogue)) := by
  rw [prepare, runSettings_of_has has, known]
  rfl

theorem prepare_of_fails {cause : RunError} (fails : Fails tree options cause) :
    prepare tree.files options = pure (.error cause) := by
  cases fails with
  | settings fails => rw [prepare, runSettings_of_fail fails, pure_bind]
  | format has refused =>
    rw [prepare, runSettings_of_has has, pure_bind]
    dsimp only
    rw [refused]
  | search has known fails =>
    rw [prepare_of_settings has known, manifestPaths_of_fail fails, pure_bind]
  | merge has known finds fails =>
    rw [prepare_of_settings has known, manifestPaths_of_finds finds, pure_bind]
    dsimp only
    rw [mergeFiles_of_fail fails, pure_bind]
  | compilation has known finds merges refused =>
    rw [prepare_of_settings has known, manifestPaths_of_finds finds, pure_bind]
    dsimp only
    rw [mergeFiles_of_merges merges, pure_bind]
    dsimp only
    rw [rendered, refused]

theorem prepare_of_renders {text : String} (renders : Renders tree options text) :
    prepare tree.files options = pure (.ok ⟨text, "json"⟩) := by
  obtain ⟨settings, format, paths, catalogue, document, has, known, finds, merges, compiled, rfl⟩ :=
    renders
  have extension : format.extension = "json" := by cases format <;> rfl
  rw [prepare_of_settings has known, manifestPaths_of_finds finds, pure_bind]
  dsimp only
  rw [mergeFiles_of_merges merges, pure_bind]
  dsimp only
  rw [rendered, compiled]
  dsimp only
  rw [extension]

end Order

end CommandLine
end AnnotatedApi
