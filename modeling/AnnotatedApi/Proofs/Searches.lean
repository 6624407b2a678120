import AnnotatedApi.Proofs.NamedTrees
import AnnotatedApi.Proofs.PatternMatches
import AnnotatedApi.Proofs.Stages
import Mathlib.Data.List.Sort

/-!
# Searches for manifests

What an argument for manifests finds, and what all of them find together: the paths in
strict order, one for each spelling.
-/

set_option autoImplicit false

namespace AnnotatedApi

open MonadAttach (CanReturn)
open LawfulMonadAttach (canReturn_bind_imp' eq_of_canReturn_pure)

variable {m : Type → Type} [Monad m] [LawfulMonad m] [MonadAttach m] [LawfulMonadAttach m]

/-! ## What an argument finds -/

namespace CommandLine

section Arguments
variable (tree : FileTree) (argument : String)

inductive Finds : String → Prop
  | file (isFile : tree.kind argument = .file) : Finds argument
  | inDirectory {names : List (String × Kind)} {name : String}
      (isDirectory : tree.kind argument = .directory) (read : tree.entriesOf argument = .ok names)
      (among : (name, Kind.file) ∈ names) (manifest : isManifest (Path.join argument name) = true) :
      Finds (Path.join argument name)
  | fitting {pattern : PathPattern} {path : String} (missing : tree.kind argument = .missing)
      (parsed : PathPattern.parse argument = .ok pattern)
      (anyKind : pattern.onlyDirectories = false)
      (reaches :
        PathPattern.Reaches tree pattern.pieces pattern.start (tree.kind pattern.start) path)
      (isFile : tree.kind path = .file) : Finds path

inductive Unsearchable : RunError → Prop
  | directory {cause : FileError} (isDirectory : tree.kind argument = .directory)
      (refused : tree.entriesOf argument = .error cause) :
      Unsearchable (.directoryUnread argument cause)
  | pattern {cause : PatternError} (missing : tree.kind argument = .missing)
      (refused : PathPattern.parse argument = .error cause) :
      Unsearchable (.badPattern argument cause)

/-- What a search for the argument may end in. -/
inductive Answers : Except RunError (List String) → Prop
  | found {paths : List String} (searchable : ∀ cause, ¬ Unsearchable tree argument cause)
      (members : ∀ path, path ∈ paths ↔ Finds tree argument path) : Answers (.ok paths)
  | refused {cause : RunError} (unsearchable : Unsearchable tree argument cause) :
      Answers (.error cause)

variable {tree argument}

theorem finds_iff_of_file (isFile : tree.kind argument = .file) (path : String) :
    Finds tree argument path ↔ path = argument := by
  constructor
  · intro finds
    cases finds <;> simp_all
  · rintro rfl
    exact .file isFile

theorem finds_iff_of_directory (isDirectory : tree.kind argument = .directory)
    {names : List (String × Kind)} (read : tree.entriesOf argument = .ok names) (path : String) :
    Finds tree argument path ↔
      ∃ name, (name, Kind.file) ∈ names ∧ isManifest path = true ∧
        path = Path.join argument name := by
  constructor
  · intro finds
    cases finds with
    | file isFile => cases isDirectory.symm.trans isFile
    | fitting missing => cases isDirectory.symm.trans missing
    | inDirectory _ read' among manifest =>
      cases read.symm.trans read'
      exact ⟨_, among, manifest, rfl⟩
  · rintro ⟨name, among, manifest, rfl⟩
    exact .inDirectory isDirectory read among manifest

theorem finds_iff_of_missing (missing : tree.kind argument = .missing) {pattern : PathPattern}
    (parsed : PathPattern.parse argument = .ok pattern) (path : String) :
    Finds tree argument path ↔ pattern.onlyDirectories = false ∧
      PathPattern.Reaches tree pattern.pieces pattern.start (tree.kind pattern.start) path ∧
      tree.kind path = .file := by
  constructor
  · intro finds
    cases finds with
    | file isFile => cases missing.symm.trans isFile
    | inDirectory isDirectory => cases missing.symm.trans isDirectory
    | fitting _ parsed' anyKind reaches isFile =>
      cases parsed.symm.trans parsed'
      exact ⟨anyKind, reaches, isFile⟩
  · rintro ⟨anyKind, reaches, isFile⟩
    exact .fitting missing parsed anyKind reaches isFile

theorem Finds.isFile (wellFormed : tree.WellFormed) {path : String}
    (finds : Finds tree argument path) : tree.kind path = .file := by
  cases finds with
  | file isFile => exact isFile
  | inDirectory _ read among => exact (wellFormed.kind_join read among).2
  | fitting _ _ _ _ isFile => exact isFile

theorem mem_manifests_iff (directory : String) (names : List (String × Kind)) (path : String) :
    (path ∈ names.filterMap fun (name, kind) =>
        if kind == Kind.file && isManifest (Path.join directory name) then
          some (Path.join directory name)
        else none) ↔
      ∃ name, (name, Kind.file) ∈ names ∧ isManifest path = true ∧
        path = Path.join directory name := by
  rw [List.mem_filterMap]
  constructor
  · rintro ⟨⟨name, kind⟩, among, taken⟩
    dsimp only at taken
    split at taken
    · next suits =>
      rw [Bool.and_eq_true, beq_iff_eq] at suits
      obtain ⟨rfl, manifest⟩ := suits
      cases taken
      exact ⟨name, among, manifest, rfl⟩
    · cases taken
  · rintro ⟨name, among, manifest, rfl⟩
    exact ⟨_, among, by simp [manifest]⟩

theorem pathsOf_answers {files : Files m} (shown : tree.ShownBy files)
    {result : Except RunError (List String)} (ran : CanReturn (pathsOf files argument) result) :
    Answers tree argument result := by
  rw [pathsOf] at ran
  obtain ⟨kind, looked, ran⟩ := canReturn_bind_imp' ran
  have isKind := (shown.kind _ _ looked).symm
  cases kind with
  | file =>
    obtain rfl := eq_of_canReturn_pure ran
    refine .found ?_ fun path => by rw [List.mem_singleton, finds_iff_of_file isKind]
    intro cause unsearchable
    cases unsearchable <;> simp_all
  | directory =>
    obtain ⟨names, looked, ran⟩ := canReturn_bind_imp' ran
    have same := shown.entries _ _ looked
    generalize read : tree.entriesOf argument = listing at same
    cases same with
    | refused cause =>
      obtain rfl := eq_of_canReturn_pure ran
      exact .refused (.directory isKind read)
    | listed same =>
      obtain rfl := eq_of_canReturn_pure ran
      refine .found ?_ fun path => ?_
      · intro cause unsearchable
        cases unsearchable <;> simp_all
      · rw [finds_iff_of_directory isKind read, mem_manifests_iff]
        simp only [same (_, Kind.file)]
  | missing =>
    dsimp only at ran
    cases parsed : PathPattern.parse argument with
    | error cause =>
      rw [parsed] at ran
      obtain rfl := eq_of_canReturn_pure ran
      exact .refused (.pattern isKind parsed)
    | ok pattern =>
      rw [parsed] at ran
      obtain ⟨found, matched, ran⟩ := canReturn_bind_imp' ran
      obtain rfl := eq_of_canReturn_pure ran
      refine .found ?_ fun path => ?_
      · intro cause unsearchable
        cases unsearchable <;> simp_all
      · rw [PathPattern.mem_matchingFiles_iff shown matched, finds_iff_of_missing isKind parsed]

end Arguments

/-! ## What all arguments find -/

/-- The paths are in strict order and spell each of the paths that are found, one for each
spelling. -/
structure Collects (found : String → Prop) (paths : List String) : Prop where
  ascending : (paths.map Path.components).Pairwise Path.Precedes
  sound : ∀ path ∈ paths, found path
  complete : ∀ path, found path → Path.components path ∈ paths.map Path.components

theorem components_insertPath (path : String) (paths : List String) (components : List Component) :
    components ∈ (insertPath path paths).map Path.components ↔
      components = Path.components path ∨ components ∈ paths.map Path.components := by
  induction paths with
  | nil => simp [insertPath]
  | cons other rest ih =>
    rw [insertPath]
    split
    · next same => rw [same]; simp
    · split
      · simp
      · rw [List.map_cons, List.mem_cons, ih, List.map_cons, List.mem_cons]
        exact or_left_comm

theorem mem_of_mem_insertPath {path other : String} {paths : List String}
    (among : other ∈ insertPath path paths) : other = path ∨ other ∈ paths := by
  induction paths with
  | nil => simpa [insertPath] using among
  | cons head rest ih =>
    rw [insertPath] at among
    split at among
    · exact Or.inr among
    · split at among
      · exact List.mem_cons.1 among
      · rcases List.mem_cons.1 among with rfl | among
        · exact Or.inr List.mem_cons_self
        · exact (ih among).imp_right (List.mem_cons_of_mem _)

theorem ascending_insertPath (path : String) {paths : List String}
    (ascending : (paths.map Path.components).Pairwise Path.Precedes) :
    ((insertPath path paths).map Path.components).Pairwise Path.Precedes := by
  induction paths with
  | nil => simp [insertPath]
  | cons head rest ih =>
    rw [List.map_cons, List.pairwise_cons] at ascending
    rw [insertPath]
    split
    · exact List.pairwise_cons.2 ascending
    · next different =>
      split
      · next before =>
        refine List.pairwise_cons.2 ⟨?_, List.pairwise_cons.2 ascending⟩
        intro components among
        rcases List.mem_cons.1 among with rfl | among
        · exact before
        · exact Path.componentsBefore_trans before (ascending.1 _ among)
      · next notBefore =>
        have after := (Path.componentsBefore_or_before different).resolve_left notBefore
        refine List.pairwise_cons.2 ⟨?_, ih ascending.2⟩
        intro components among
        rcases (components_insertPath path rest components).1 among with rfl | among
        · exact after
        · exact ascending.1 _ among

theorem Collects.empty : Collects (fun _ => False) [] where
  ascending := .nil
  sound _ among := by cases among
  complete _ isFound := isFound.elim

theorem Collects.congr {found found' : String → Prop} {paths : List String}
    (collects : Collects found paths) (same : ∀ path, found path ↔ found' path) :
    Collects found' paths := by
  rwa [← funext fun path => propext (same path)]

theorem Collects.insert {found : String → Prop} {paths : List String}
    (collects : Collects found paths) (path : String) :
    Collects (fun other => found other ∨ other = path) (insertPath path paths) where
  ascending := ascending_insertPath path collects.ascending
  sound other among := (mem_of_mem_insertPath among).symm.imp_left (collects.sound other)
  complete other isFound := by
    rw [components_insertPath]
    rcases isFound with isFound | rfl
    · exact Or.inr (collects.complete other isFound)
    · exact Or.inl rfl

theorem Collects.insertAll {found : String → Prop} {sorted : List String}
    (collects : Collects found sorted) (paths : List String) :
    Collects (fun other => found other ∨ other ∈ paths)
      (paths.foldl (fun sorted path => insertPath path sorted) sorted) := by
  induction paths generalizing found sorted with
  | nil => exact collects.congr fun other => by simp
  | cons path rest ih =>
    exact (ih (collects.insert path)).congr fun other => by rw [List.mem_cons, or_assoc]

/-- Paths that spell the same are the same up to what does not count in a spelling. -/
theorem Collects.components_eq {found : String → Prop} {paths paths' : List String}
    (collects : Collects found paths) (collects' : Collects found paths') :
    paths.map Path.components = paths'.map Path.components := by
  have covered : ∀ {first second : List String}, Collects found first → Collects found second →
      ∀ components ∈ first.map Path.components, components ∈ second.map Path.components := by
    intro first second one two components among
    obtain ⟨path, listed, rfl⟩ := List.mem_map.1 among
    exact two.complete path (one.sound path listed)
  exact collects.ascending.eq_of_mem_iff collects'.ascending fun components =>
    ⟨covered collects collects' components, covered collects' collects components⟩

section Arguments
variable (tree : FileTree) (arguments : List String)

def FindsAny (path : String) : Prop := ∃ argument ∈ arguments, Finds tree argument path

inductive Resolves : Except RunError (List String) → Prop
  | found {paths : List String}
      (searchable : ∀ argument ∈ arguments, ∀ cause, ¬ Unsearchable tree argument cause)
      (collects : Collects (FindsAny tree arguments) paths) : Resolves (.ok paths)
  | refused {argument : String} {cause : RunError} (among : argument ∈ arguments)
      (unsearchable : Unsearchable tree argument cause) : Resolves (.error cause)

variable {tree arguments}

theorem FindsAny.isFile (wellFormed : tree.WellFormed) {path : String}
    (finds : FindsAny tree arguments path) : tree.kind path = .file := by
  obtain ⟨argument, -, finds⟩ := finds
  exact finds.isFile wellFormed

theorem collectPaths_resolves {files : Files m} (shown : tree.ShownBy files)
    {before : List String}
    (searchable : ∀ argument ∈ before, ∀ cause, ¬ Unsearchable tree argument cause)
    {sorted : List String} (collects : Collects (FindsAny tree before) sorted)
    {result : Except RunError (List String)}
    (ran : CanReturn (collectPaths files sorted arguments) result) :
    Resolves tree (before ++ arguments) result := by
  -- The arguments that are done move from the front of the list to `before`.
  induction arguments generalizing before sorted with
  | nil =>
    rw [collectPaths] at ran
    obtain rfl := eq_of_canReturn_pure ran
    rw [List.append_nil]
    exact .found searchable collects
  | cons argument rest ih =>
    rw [collectPaths] at ran
    obtain ⟨answer, looked, ran⟩ := canReturn_bind_imp' ran
    cases pathsOf_answers shown looked with
    | refused unsearchable =>
      obtain rfl := eq_of_canReturn_pure ran
      exact .refused (by simp) unsearchable
    | @found paths searchableHere members =>
      have split : before ++ argument :: rest = (before ++ [argument]) ++ rest := by simp
      rw [split]
      refine ih ?_ ((collects.insertAll paths).congr ?_) ran
      · intro earlier among
        rcases List.mem_append.1 among with among | among
        · exact searchable earlier among
        · obtain rfl := List.mem_singleton.1 among
          exact searchableHere
      · intro path
        simp [FindsAny, members, or_and_right, exists_or]

theorem manifestPaths_resolves {files : Files m} (shown : tree.ShownBy files)
    {result : Except RunError (List String)}
    (ran : CanReturn (manifestPaths files arguments) result) : Resolves tree arguments result := by
  have none : Collects (FindsAny tree []) [] := Collects.empty.congr fun path => by simp [FindsAny]
  exact collectPaths_resolves shown (by simp) none ran

end Arguments
end CommandLine
end AnnotatedApi
