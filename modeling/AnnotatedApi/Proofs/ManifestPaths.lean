import AnnotatedApi.Proofs.PatternPieces
import AnnotatedApi.Proofs.Searches

/-!
# Files behind the paths of manifests

The paths that are found are told apart by their components, but two spellings of one file
may have different components, and the file is then read twice.  Arguments that start in
the same way and spell their paths without dots lead to every file in one spelling only.
-/

set_option autoImplicit false

namespace AnnotatedApi

open Text

/-! ## Spellings that a search keeps -/

section Spelling
variable (absolute : Bool)

/-- The argument spells a path straight, and its pieces with a dot in front are plain names. -/
structure DotlessArgument (argument : String) : Prop where
  straight : Component.Straight absolute (Path.components argument)
  dotted : ∀ piece ∈ splitAt '/' argument.toList, piece.head? = some '.' →
    ∀ c ∈ piece, ¬ Pattern.IsWildcardSign c

structure SpelledFrom (path : String) : Prop where
  nonempty : path ≠ ""
  spelled : absolute = false ∧ Path.components path = [.here] ∨
    Component.Straight absolute (Path.components path)

variable {absolute}

namespace SpelledFrom
variable {path : String} (spelledFrom : SpelledFrom absolute path)
include spelledFrom

theorem not_absolute (here : Path.components path = [.here]) : absolute = false := by
  rcases spelledFrom.spelled with ⟨relative, -⟩ | straight
  · exact relative
  · rw [here] at straight
    exact absurd (List.mem_singleton.2 rfl) straight.here_not_mem

theorem extend {name : String} (isName : IsName name) :
    SpelledFrom absolute (PathPattern.extend path name) := by
  rw [PathPattern.extend]
  by_cases here : Path.components path = [.here]
  · rw [if_pos here]
    refine ⟨isName.nonempty, Or.inr ?_⟩
    rw [spelledFrom.not_absolute here, isName.components]
    exact ⟨[name], rfl⟩
  · rw [if_neg here]
    refine ⟨Path.join_ne_empty spelledFrom.nonempty isName.plain, Or.inr ?_⟩
    rw [isName.components_join spelledFrom.nonempty]
    exact (spelledFrom.spelled.resolve_left fun current => here current.2).append_name name

theorem foldl_extend {names : List String} (areNames : ∀ name ∈ names, IsName name) :
    SpelledFrom absolute (names.foldl PathPattern.extend path) := by
  induction names generalizing path with
  | nil => exact spelledFrom
  | cons name rest ih =>
    obtain ⟨isName, others⟩ := List.forall_mem_cons.1 areNames
    exact ih (spelledFrom.extend isName) others

theorem extend_filler {name : String} (filler : name = "" ∨ name = ".")
    (nonempty : PathPattern.extend path name ≠ "") :
    SpelledFrom absolute (PathPattern.extend path name) := by
  refine ⟨nonempty, ?_⟩
  rw [PathPattern.extend] at nonempty ⊢
  by_cases here : Path.components path = [.here]
  · rw [if_pos here] at nonempty ⊢
    obtain rfl := filler.resolve_left nonempty
    exact Or.inl ⟨spelledFrom.not_absolute here, by decide⟩
  · rw [if_neg here]
    have kept : Path.components (Path.join path name) = Path.components path := by
      rcases filler with rfl | rfl
      · exact (Path.components_join spelledFrom.nonempty (by decide)).trans (List.append_nil _)
      · exact (Path.components_join spelledFrom.nonempty (by decide)).trans (List.append_nil _)
    rw [kept]
    exact spelledFrom.spelled

end SpelledFrom

theorem SpelledFrom.reaches {tree : FileTree} (wellFormed : tree.WellFormed)
    {pieces : List Pattern.Piece} {path found : String} {kind : Kind}
    (keep : ∀ piece ∈ pieces, piece.KeepsStraight)
    (reaches : PathPattern.Reaches tree pieces path kind found)
    (spelledFrom : SpelledFrom absolute path) : SpelledFrom absolute found := by
  induction reaches with
  | here => exact spelledFrom
  | @literal name rest path found kind there _ ih =>
    obtain ⟨⟨notParent, plain⟩, others⟩ := List.forall_mem_cons.1 keep
    apply ih others
    by_cases filler : name = "" ∨ name = "."
    · apply spelledFrom.extend_filler filler
      intro empty
      rcases filler with rfl | rfl
      · rw [if_neg (by decide), empty] at there
        exact ((tree.kind_eq_iff "" there).1 rfl).1 rfl
      · rw [PathPattern.extend] at empty
        split at empty
        · exact absurd empty (by decide)
        · exact Path.join_ne_empty spelledFrom.nonempty (by decide) empty
    · rw [not_or] at filler
      exact spelledFrom.extend ⟨filler.1, filler.2, notParent, plain⟩
  | dots among _ ih =>
    have none : PathPattern.dotNames _ = [] := (List.forall_mem_cons.1 keep).1
    rw [none] at among
    cases among
  | @wild wildcards rest path name found kind among _ _ ih =>
    apply ih (List.forall_mem_cons.1 keep).2
    cases read : tree.entriesOf path with
    | error cause => rw [read] at among; cases among
    | ok names =>
      rw [read] at among
      exact spelledFrom.extend (wellFormed.kind_join read among).1
  | anyDepths _ ih => exact ih (List.forall_mem_cons.1 keep).2 spelledFrom
  | directories among => exact spelledFrom.foldl_extend (wellFormed.isName_of_mem_below among)
  | anyDepth _ among _ _ ih =>
    have others := (List.forall_mem_cons.1 (List.forall_mem_cons.1 keep).2).2
    exact ih others (spelledFrom.foldl_extend (wellFormed.isName_of_mem_below among))

/-- Nothing but a directory is at the path that is the current one. -/
theorem kind_ne_file_of_here {tree : FileTree} {path : String}
    (here : Path.components path = [.here]) : tree.kind path ≠ .file := by
  intro isFile
  obtain ⟨-, stops, entry, there, entryKind⟩ := (tree.kind_eq_iff path (by decide)).1 isFile
  have relative : ¬ path.toList.head? = some '/' := by
    rw [← Path.root_mem_components_iff, here]
    decide
  obtain ⟨piece, pieces, split⟩ := List.exists_cons_of_ne_nil (splitAt_ne_nil '/' path.toList)
  have passed : tree.current ∈ Path.stops tree.current path := by
    rw [Path.stops, Path.start, if_neg relative, split, Place.passed]
    exact List.mem_cons_self
  rw [Component.destination_eq_foldl, here, List.foldl_cons, List.foldl_nil, Component.enter,
    stops _ passed] at there
  cases there
  cases entryKind

theorem DotlessArgument.straight_of_finds {tree : FileTree} (wellFormed : tree.WellFormed)
    {argument path : String} (dotless : DotlessArgument absolute argument)
    (finds : CommandLine.Finds tree argument path) :
    Component.Straight absolute (Path.components path) := by
  cases finds with
  | file => exact dotless.straight
  | inDirectory isDirectory read among =>
    have isName := (wellFormed.kind_join read among).1
    have nonempty := (FileTree.entriesOf_eq_ok read).1
    rw [isName.components_join nonempty]
    exact dotless.straight.append_name _
  | @fitting pattern _ _ parsed _ reaches isFile =>
    obtain ⟨start, read⟩ := PathPattern.parse_eq_ok parsed
    have keep : ∀ piece ∈ pattern.pieces, piece.KeepsStraight := by
      intro piece among
      obtain ⟨text, isText, wildcards, parsed, rfl⟩ := read piece among
      apply Pattern.keepsStraight_ofWildcards parsed (not_mem_of_mem_splitAt '/' isText) _
        (dotless.dotted text isText)
      rintro rfl
      apply dotless.straight.parent_not_mem
      rw [Path.components_eq]
      exact List.mem_append_right _ (List.mem_filterMap.2 ⟨_, isText, rfl⟩)
    have spelledFrom : SpelledFrom absolute pattern.start := by
      have isAbsolute := dotless.straight.root_mem_iff
      rw [Path.root_mem_components_iff] at isAbsolute
      rw [start]
      by_cases front : argument.toList.head? = some '/'
      · rw [if_pos front, isAbsolute.1 front]
        exact ⟨by decide, Or.inr ⟨[], by decide⟩⟩
      · have relative : absolute = false := by simpa using mt isAbsolute.2 front
        rw [if_neg front, relative]
        exact ⟨by decide, Or.inl ⟨rfl, by decide⟩⟩
    have spelled := (spelledFrom.reaches wellFormed keep reaches).spelled
    exact spelled.resolve_left fun current => kind_ne_file_of_here current.2 isFile

end Spelling

/-! ## Files behind the paths -/

namespace CommandLine

section Files
variable {tree : FileTree} {arguments paths : List String}

/-- No two of the paths lead to one place. -/
def FilesDistinct (tree : FileTree) (paths : List String) : Prop :=
  (paths.map (Path.destination tree.current)).Nodup

def ListsClass (tree : FileTree) (path name : String) : Prop :=
  ∃ part, Lists tree path part ∧ name ∈ part.names

theorem collects_of_resolved (resolved : (manifestPaths tree.files arguments).run = .ok paths) :
    Collects (FindsAny tree arguments) paths := by
  cases manifestPaths_resolves tree.shownBy_files resolved with
  | found _ collects => exact collects

theorem Collects.nodup_components {found : String → Prop} (collects : Collects found paths) :
    (paths.map Path.components).Nodup :=
  collects.ascending.imp fun before same => by
    rw [same] at before
    exact Path.not_componentsBefore_self _ before

/-- The paths lead to distinct places if no place is found in two spellings. -/
theorem Collects.filesDistinct_iff {found : String → Prop} (collects : Collects found paths) :
    FilesDistinct tree paths ↔ ∀ first second, found first → found second →
      Path.destination tree.current first = Path.destination tree.current second →
        Path.components first = Path.components second := by
  have spelled := List.inj_on_of_nodup_map collects.nodup_components
  rw [FilesDistinct, List.nodup_map_iff_inj_on collects.nodup_components.of_map]
  constructor
  · intro distinct first second isFound isFound' same
    obtain ⟨path, among, components⟩ := List.mem_map.1 (collects.complete first isFound)
    obtain ⟨path', among', components'⟩ := List.mem_map.1 (collects.complete second isFound')
    have one : path = path' := by
      apply distinct path among path' among'
      rw [Component.destination_eq_foldl, Component.destination_eq_foldl] at same ⊢
      rw [components, components', same]
    rw [← components, ← components', one]
  · intro alike path among path' among' same
    exact spelled among among' (alike path path' (collects.sound path among)
      (collects.sound path' among') same)

theorem exists_of_mem_names {before : List String} {merged : Catalogue} {name : String}
    (merges : Merges tree before merged) (taken : name ∈ merged.names) :
    ∃ path ∈ before, ListsClass tree path name := by
  obtain ⟨parts, all, -, whole⟩ := merges
  have among : ∃ part ∈ parts, name ∈ part.names := by
    rw [Catalogue.names, whole, List.map_map] at taken
    obtain ⟨cls, listed, rfl⟩ := List.mem_map.1 taken
    obtain ⟨part, isPart, ofPart⟩ := List.mem_flatMap.1 listed
    exact ⟨part, isPart, List.mem_map.2 ⟨cls, ofPart, rfl⟩⟩
  clear whole
  induction all with
  | nil => simp at among
  | @cons path part before parts listed _ ih =>
    obtain ⟨part', isPart, named⟩ := among
    rcases List.mem_cons.1 isPart with rfl | isPart
    · exact ⟨path, List.mem_cons_self, part', listed, named⟩
    · obtain ⟨path', among, lists⟩ := ih ⟨part', isPart, named⟩
      exact ⟨path', List.mem_cons_of_mem path among, lists⟩

theorem readCatalogue_ne_duplicate (path : String) (clash : DuplicateClass) :
    (readCatalogue tree.files path).run ≠ .error (.duplicate clash) := by
  rw [readCatalogue, files_text, pure_bind]
  cases tree.text path with
  | error cause => simp
  | ok text => cases read : Catalogue.ofFile path text <;> simp [read]

/-- Two manifests that both list a class are two files, if the paths lead to distinct ones. -/
theorem exists_two_of_duplicate {name : String} (distinct : FilesDistinct tree paths)
    (clashed : (mergeFiles tree.files Catalogue.empty paths).run = .error (.duplicate ⟨name⟩)) :
    ∃ first ∈ paths, ∃ second ∈ paths,
      Path.destination tree.current first ≠ Path.destination tree.current second ∧
        ListsClass tree first name ∧ ListsClass tree second name := by
  rcases merges_or_fails tree paths with ⟨merged, merges⟩ | ⟨cause, fails⟩
  · rw [mergeFiles_of_merges merges] at clashed
    cases clashed
  · rw [mergeFiles_of_fail fails] at clashed
    obtain rfl : cause = .duplicate ⟨name⟩ := Except.error.inj clashed
    cases fails with
    | unread _ _ refused => exact absurd refused (readCatalogue_ne_duplicate _ _)
    | @duplicate before after path merged part cls split earlier listed first =>
      obtain ⟨front, back, isFirst, -, taken⟩ := first
      obtain ⟨path', among, lists⟩ := exists_of_mem_names earlier (not_not.1 taken)
      have named : cls.name ∈ part.names := by simp [Catalogue.names, isFirst]
      rw [FilesDistinct, split, List.map_append, List.map_cons] at distinct
      have apart := (List.nodup_append.1 distinct).2.2 _ (List.mem_map_of_mem among) _
        List.mem_cons_self
      refine ⟨path', ?_, path, ?_, apart, lists, part, listed, named⟩
      · rw [split]
        exact List.mem_append_left _ among
      · rw [split]
        exact List.mem_append_right _ List.mem_cons_self

/-- The paths that arguments resolve to are files.  They are distinct files exactly if no
place is found in two spellings, which cannot be among dotless arguments; a class that is
then listed twice is listed by two files. -/
theorem manifestPaths_distinct (wellFormed : tree.WellFormed)
    (resolved : (manifestPaths tree.files arguments).run = .ok paths) :
    (∀ path ∈ paths, tree.kind path = .file) ∧
    (FilesDistinct tree paths ↔
      ∀ first second, FindsAny tree arguments first → FindsAny tree arguments second →
        Path.destination tree.current first = Path.destination tree.current second →
          Path.components first = Path.components second) ∧
    (∀ absolute, (∀ argument ∈ arguments, DotlessArgument absolute argument) →
      FilesDistinct tree paths) ∧
    (FilesDistinct tree paths → ∀ name,
      (mergeFiles tree.files Catalogue.empty paths).run = .error (.duplicate ⟨name⟩) →
        ∃ first ∈ paths, ∃ second ∈ paths,
          Path.destination tree.current first ≠ Path.destination tree.current second ∧
            ListsClass tree first name ∧ ListsClass tree second name) := by
  have collects := collects_of_resolved resolved
  refine ⟨?files, collects.filesDistinct_iff, ?dotless, ?duplicate⟩
  case files =>
    intro path among
    exact (collects.sound path among).isFile wellFormed
  case dotless =>
    intro absolute dotless
    apply collects.filesDistinct_iff.2
    rintro first second ⟨argument, isArgument, finds⟩ ⟨argument', isArgument', finds'⟩ same
    have straight := (dotless argument isArgument).straight_of_finds wellFormed finds
    have straight' := (dotless argument' isArgument').straight_of_finds wellFormed finds'
    rw [Component.destination_eq_foldl, Component.destination_eq_foldl] at same
    exact straight.eq_of_foldl_enter straight' same
  case duplicate =>
    intro distinct name clashed
    exact exists_two_of_duplicate distinct clashed

end Files

def quayside : FileTree where
  entries := [(["work"], .directory),
    (["work", "quay.json"], .file (some "\x7b\"classes\": [\x7b\"name\": \"Quay\"\x7d]\x7d"))]
  current := ["work"]

theorem wellFormed_quayside : quayside.WellFormed := by decide +kernel

theorem manifestPaths_distinct_quayside :
    quayside.WellFormed ∧
      (manifestPaths quayside.files ["quay.json", "*.json"]).run = .ok ["quay.json"] ∧
      (∀ argument ∈ ["quay.json", "*.json"], DotlessArgument false argument) ∧
      FilesDistinct quayside ["quay.json"] := by
  have resolved : (manifestPaths quayside.files ["quay.json", "*.json"]).run =
      .ok ["quay.json"] := by decide +kernel
  have dotless : ∀ argument ∈ ["quay.json", "*.json"], DotlessArgument false argument := by
    have direct : DotlessArgument false "quay.json" :=
      ⟨⟨["quay.json"], by decide⟩, by simp [splitAt, consHead]⟩
    have fitting : DotlessArgument false "*.json" :=
      ⟨⟨["*.json"], by decide⟩, by simp [splitAt, consHead]⟩
    simp [direct, fitting]
  obtain ⟨-, -, distinct, -⟩ := manifestPaths_distinct wellFormed_quayside resolved
  exact ⟨wellFormed_quayside, resolved, dotless, distinct false dotless⟩

/-- A file that is named by itself and through its directory is found in two spellings, and
the run then fails although each of the two arguments alone is fine. -/
theorem found_twice_quayside :
    quayside.WellFormed ∧
      (manifestPaths quayside.files [".", "quay.json"]).run = .ok ["./quay.json", "quay.json"] ∧
      ¬ FilesDistinct quayside ["./quay.json", "quay.json"] ∧
      (∀ argument ∈ [".", "quay.json"], (prepare quayside.files
        { manifests := [argument], controller := some "Quay" }).run.isOk = true) ∧
      (prepare quayside.files { manifests := [".", "quay.json"], controller := some "Quay" }).run =
        .error (.duplicate ⟨"Quay"⟩) := by
  refine ⟨wellFormed_quayside, by decide +kernel, ?_, by decide +kernel, by decide +kernel⟩
  rw [FilesDistinct]
  decide +kernel

end CommandLine
end AnnotatedApi
