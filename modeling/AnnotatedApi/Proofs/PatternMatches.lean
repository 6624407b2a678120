import AnnotatedApi.CommandLine.Manifests
import AnnotatedApi.FileTree.Basic

/-!
# What a pattern leads to

The paths of a pattern, said without the search for them.  Files may be looked at in any
monad, and a directory may list what it holds in any order: which paths are found does not
depend on that.
-/

set_option autoImplicit false

namespace AnnotatedApi

open MonadAttach (CanReturn)
open LawfulMonadAttach (canReturn_bind_imp' eq_of_canReturn_pure)

variable {m : Type → Type} [Monad m] [LawfulMonad m] [MonadAttach m] [LawfulMonadAttach m]

/-! ## Values of actions -/

section Values
variable {α β : Type}

def GivesOnly (action : m α) (value : α) : Prop :=
  ∀ result, CanReturn action result → result = value

theorem GivesOnly.pure (value : α) : GivesOnly (Pure.pure value : m α) value :=
  fun _ ran => (eq_of_canReturn_pure ran).symm

theorem GivesOnly.bind {action : m α} {value : α} {next : α → m β} {result : β}
    (first : GivesOnly action value) (second : GivesOnly (next value) result) :
    GivesOnly (action >>= next) result := by
  intro result' ran
  obtain ⟨value', looked, ran⟩ := canReturn_bind_imp' ran
  rw [first value' looked] at ran
  exact second result' ran

/-- What the parts of a loop hold, its parts put together hold. -/
theorem mem_flatten_of_mapM {part : α → m (List β)} {holds : α → β → Prop}
    (each : ∀ x ys, CanReturn (part x) ys → ∀ y, y ∈ ys ↔ holds x y) {xs : List α}
    {parts : List (List β)} (ran : CanReturn (xs.mapM part) parts) (y : β) :
    y ∈ parts.flatten ↔ ∃ x ∈ xs, holds x y := by
  induction xs generalizing parts with
  | nil =>
    rw [List.mapM_nil] at ran
    obtain rfl := eq_of_canReturn_pure ran
    simp
  | cons x xs ih =>
    rw [List.mapM_cons] at ran
    obtain ⟨ys, first, ran⟩ := canReturn_bind_imp' ran
    obtain ⟨others, rest, ran⟩ := canReturn_bind_imp' ran
    obtain rfl := eq_of_canReturn_pure ran
    rw [List.flatten_cons, List.mem_append, each x ys first, ih rest]
    simp

theorem filterM_givesOnly {test : α → m Bool} {good : α → Bool}
    (each : ∀ x, GivesOnly (test x) (good x)) (xs : List α) :
    GivesOnly (xs.filterM test) (xs.filter good) := by
  have collected : ∀ (xs sofar kept : List α), CanReturn (xs.filterAuxM test sofar) kept →
      kept = (xs.filter good).reverse ++ sofar := by
    intro xs
    induction xs with
    | nil =>
      intro sofar kept ran
      rw [List.filterAuxM] at ran
      exact (eq_of_canReturn_pure ran).symm
    | cons x xs ih =>
      intro sofar kept ran
      rw [List.filterAuxM] at ran
      obtain ⟨answer, tested, ran⟩ := canReturn_bind_imp' ran
      obtain rfl := each x answer tested
      rw [ih _ kept ran]
      cases passes : good x <;> simp [passes]
  intro kept ran
  rw [List.filterM] at ran
  obtain ⟨reversed, aux, ran⟩ := canReturn_bind_imp' ran
  rw [← eq_of_canReturn_pure ran, collected xs [] reversed aux]
  simp

end Values

/-! ## Listings in any order -/

/-- Two listings of one thing: the same failure, or the same members. -/
inductive SameMembers {ε α : Type} : Except ε (List α) → Except ε (List α) → Prop
  | listed {xs ys : List α} (same : ∀ x, x ∈ xs ↔ x ∈ ys) : SameMembers (.ok xs) (.ok ys)
  | refused (cause : ε) : SameMembers (.error cause) (.error cause)

theorem SameMembers.refl {ε α : Type} (listing : Except ε (List α)) :
    SameMembers listing listing := by
  cases listing with
  | error cause => exact .refused cause
  | ok xs => exact .listed fun _ => Iff.rfl

namespace FileTree

/-- A way of looking at files that tells what is in the tree; the order of a listing is free,
also from one look to the next. -/
structure ShownBy (tree : FileTree) (files : Files m) : Prop where
  kind : ∀ path, GivesOnly (files.kind path) (tree.kind path)
  entries : ∀ path names, CanReturn (files.entries path) names →
    SameMembers (tree.entriesOf path) names
  below : ∀ path inside, CanReturn (files.below path) inside →
    ∀ item, item ∈ inside ↔ item ∈ tree.below path
  text : ∀ path, GivesOnly (files.text path) (tree.text path)

theorem shownBy_files (tree : FileTree) : tree.ShownBy tree.files where
  kind _ _ looked := Eq.symm looked
  entries path names looked := by
    obtain rfl : tree.entriesOf path = names := looked
    exact SameMembers.refl _
  below path inside looked := by
    obtain rfl : tree.below path = inside := looked
    exact fun _ => Iff.rfl
  text _ _ looked := Eq.symm looked

end FileTree

/-! ## What a pattern leads to -/

namespace PathPattern

open Pattern

/-- The pieces lead from a path of a kind to another path. -/
inductive Reaches (tree : FileTree) : List Piece → String → Kind → String → Prop
  | here {path : String} {kind : Kind} : Reaches tree [] path kind path
  | literal {name : String} {rest : List Piece} {path found : String} {kind : Kind}
      (there : if name = "." ∨ name = ".." then kind = .directory
        else tree.kind (extend path name) ≠ .missing)
      (onward : Reaches tree rest (extend path name) (tree.kind (extend path name)) found) :
      Reaches tree (.literal name :: rest) path kind found
  | dots {wildcards : List Wildcard} {rest : List Piece} {path dots found : String}
      (among : dots ∈ dotNames wildcards)
      (onward : Reaches tree rest (Path.join path dots) (tree.kind (Path.join path dots)) found) :
      Reaches tree (.wild wildcards :: rest) path .directory found
  | wild {wildcards : List Wildcard} {rest : List Piece} {path name found : String} {kind : Kind}
      (among : (name, kind) ∈ listed (tree.entriesOf path))
      (fitting : fits wildcards name.toList = true)
      (onward : Reaches tree rest (extend path name) kind found) :
      Reaches tree (.wild wildcards :: rest) path .directory found
  | anyDepths {rest : List Piece} {path found : String} {kind : Kind}
      (onward : Reaches tree (.anyDepth :: rest) path kind found) :
      Reaches tree (.anyDepth :: .anyDepth :: rest) path kind found
  | directories {path : String} {names : List String}
      (among : (names, Kind.directory) ∈ tree.below path) :
      Reaches tree [.anyDepth] path .directory (names.foldl extend path)
  | anyDepth {piece : Piece} {rest : List Piece} {path found : String} {names : List String}
      {kind : Kind} (single : piece ≠ .anyDepth) (among : (names, kind) ∈ tree.below path)
      (fitting : piece.fitsName (names.getLast?.getD "") = true)
      (onward : Reaches tree rest (names.foldl extend path) kind found) :
      Reaches tree (.anyDepth :: piece :: rest) path .directory found

theorem mem_listed_iff {names names' : Except FileError (List (String × Kind))}
    (same : SameMembers names names') (pair : String × Kind) :
    pair ∈ listed names' ↔ pair ∈ listed names := by
  cases same with
  | listed same => exact (same pair).symm
  | refused cause => exact Iff.rfl

section Expansion
variable (tree : FileTree) (files : Files m)

def ExpandsRightly (pieces : List Piece) : Prop :=
  ∀ path kind found, CanReturn (expand files pieces path kind) found →
    ∀ other, other ∈ found ↔ Reaches tree pieces path kind other

variable {tree files} (shown : tree.ShownBy files)

theorem expandsRightly_nil : ExpandsRightly tree files [] := by
  intro path kind found ran other
  rw [expand] at ran
  obtain rfl := eq_of_canReturn_pure ran
  rw [List.mem_singleton]
  constructor
  · rintro rfl
    exact .here
  · rintro ⟨⟩
    rfl

/-- Only a literal piece leads on from a path that is no directory. -/
theorem Reaches.isDirectory {piece : Piece} {rest : List Piece} {path found : String} {kind : Kind}
    (reaches : Reaches tree (piece :: rest) path kind found)
    (notLiteral : ∀ name, piece ≠ .literal name) : kind = .directory := by
  generalize isPieces : piece :: rest = pieces at reaches
  induction reaches generalizing rest with
  | here => cases isPieces
  | literal => cases isPieces; exact absurd rfl (notLiteral _)
  | anyDepths _ ih => cases isPieces; exact ih rfl
  | dots | wild | directories | anyDepth => rfl

theorem mem_iff_reaches_of_closed {piece : Piece} {rest : List Piece} {path : String} {kind : Kind}
    {found : List String} (ran : CanReturn (pure [] : m (List String)) found)
    (notLiteral : ∀ name, piece ≠ .literal name) (closed : kind ≠ .directory) (other : String) :
    other ∈ found ↔ Reaches tree (piece :: rest) path kind other := by
  obtain rfl := eq_of_canReturn_pure ran
  simp only [List.not_mem_nil, false_iff]
  exact fun reaches => closed (reaches.isDirectory notLiteral)

omit [LawfulMonad m] [LawfulMonadAttach m] in
theorem ExpandsRightly.anyDepths {rest : List Piece}
    (onward : ExpandsRightly tree files (.anyDepth :: rest)) :
    ExpandsRightly tree files (.anyDepth :: .anyDepth :: rest) := by
  intro path kind found ran other
  rw [expand] at ran
  rw [onward path kind found ran]
  constructor
  · exact .anyDepths
  · intro reaches
    cases reaches with
    | anyDepths onward => exact onward
    | anyDepth single => exact absurd rfl single

include shown

theorem ExpandsRightly.literal {rest : List Piece} (onward : ExpandsRightly tree files rest)
    (name : String) : ExpandsRightly tree files (.literal name :: rest) := by
  intro path kind found ran other
  rw [expand] at ran
  obtain ⟨nextKind, looked, ran⟩ := canReturn_bind_imp' ran
  obtain rfl := shown.kind _ _ looked
  have goes : ((name == "." || name == "..") && kind == .directory ||
      !(name == "." || name == "..") && tree.kind (extend path name) != .missing) = true ↔
      if name = "." ∨ name = ".." then kind = .directory
        else tree.kind (extend path name) ≠ .missing := by
    by_cases dots : name = "." ∨ name = ".."
    · rcases dots with rfl | rfl <;> simp
    · rw [if_neg dots]
      rw [not_or] at dots
      simp [dots]
  by_cases there : if name = "." ∨ name = ".." then kind = .directory
      else tree.kind (extend path name) ≠ .missing
  · rw [if_pos (goes.2 there)] at ran
    rw [onward _ _ _ ran]
    constructor
    · exact .literal there
    · rintro ⟨⟩
      assumption
  · rw [if_neg fun guarded => there (goes.1 guarded)] at ran
    obtain rfl := eq_of_canReturn_pure ran
    simp only [List.not_mem_nil, false_iff]
    rintro ⟨⟩
    contradiction

theorem ExpandsRightly.wild {rest : List Piece} (onward : ExpandsRightly tree files rest)
    (wildcards : List Wildcard) : ExpandsRightly tree files (.wild wildcards :: rest) := by
  intro path kind found ran other
  rw [expand] at ran
  by_cases opened : kind = .directory
  · subst opened
    rw [if_neg (by decide)] at ran
    obtain ⟨dots, dotted, ran⟩ := canReturn_bind_imp' ran
    obtain ⟨names, looked, ran⟩ := canReturn_bind_imp' ran
    obtain ⟨inside, fitted, ran⟩ := canReturn_bind_imp' ran
    obtain rfl := eq_of_canReturn_pure ran
    have ofDots := mem_flatten_of_mapM (fun dots found ran => by
      obtain ⟨kind, looked, ran⟩ := canReturn_bind_imp' ran
      obtain rfl := shown.kind _ _ looked
      exact onward _ _ _ ran) dotted other
    have ofNames := mem_flatten_of_mapM (fun pair found ran => onward _ _ _ ran) fitted other
    have isListed := mem_listed_iff (shown.entries _ _ looked)
    simp only [List.mem_append, ofDots, ofNames, List.mem_filter, isListed]
    constructor
    · rintro (⟨dots, among, reaches⟩ | ⟨pair, ⟨among, fitting⟩, reaches⟩)
      · exact .dots among reaches
      · exact .wild among fitting reaches
    · intro reaches
      cases reaches with
      | dots among onward => exact Or.inl ⟨_, among, onward⟩
      | wild among fitting onward => exact Or.inr ⟨_, ⟨among, fitting⟩, onward⟩
  · rw [if_pos (by simpa using opened)] at ran
    exact mem_iff_reaches_of_closed ran (by simp) opened other

theorem expandsRightly_anyDepth : ExpandsRightly tree files [.anyDepth] := by
  intro path kind found ran other
  rw [expand] at ran
  by_cases opened : kind = .directory
  · subst opened
    rw [if_neg (by decide)] at ran
    obtain ⟨inside, looked, ran⟩ := canReturn_bind_imp' ran
    obtain rfl := eq_of_canReturn_pure ran
    simp only [List.mem_filterMap, shown.below _ _ looked]
    constructor
    · rintro ⟨⟨names, kind⟩, among, extended⟩
      dsimp only at extended
      split at extended
      · next directory =>
        rw [beq_iff_eq] at directory
        subst directory
        cases extended
        exact .directories among
      · cases extended
    · intro reaches
      cases reaches with
      | directories among => exact ⟨_, among, rfl⟩
  · rw [if_pos (by simpa using opened)] at ran
    exact mem_iff_reaches_of_closed ran (by simp) opened other

theorem ExpandsRightly.anyDepth {rest : List Piece} (onward : ExpandsRightly tree files rest)
    {piece : Piece} (single : piece ≠ .anyDepth) :
    ExpandsRightly tree files (.anyDepth :: piece :: rest) := by
  intro path kind found ran other
  rw [expand] at ran
  · by_cases opened : kind = .directory
    · subst opened
      rw [if_neg (by decide)] at ran
      obtain ⟨inside, looked, ran⟩ := canReturn_bind_imp' ran
      obtain ⟨parts, fitted, ran⟩ := canReturn_bind_imp' ran
      obtain rfl := eq_of_canReturn_pure ran
      have ofNames := mem_flatten_of_mapM (fun pair found ran => onward _ _ _ ran) fitted other
      simp only [ofNames, List.mem_filter, shown.below _ _ looked]
      constructor
      · rintro ⟨pair, ⟨among, fitting⟩, reaches⟩
        exact .anyDepth single among fitting reaches
      · intro reaches
        cases reaches with
        | anyDepths onward => exact absurd rfl single
        | anyDepth _ among fitting onward => exact ⟨_, ⟨among, fitting⟩, onward⟩
    · rw [if_pos (by simpa using opened)] at ran
      exact mem_iff_reaches_of_closed ran (by simp) opened other
  · exact single

theorem expandsRightly : ∀ pieces : List Piece, ExpandsRightly tree files pieces
  | [] => expandsRightly_nil
  | .literal name :: rest => (expandsRightly rest).literal shown name
  | .wild wildcards :: rest => (expandsRightly rest).wild shown wildcards
  | [.anyDepth] => expandsRightly_anyDepth shown
  | .anyDepth :: .anyDepth :: rest => (expandsRightly (.anyDepth :: rest)).anyDepths
  | .anyDepth :: .literal _ :: rest => (expandsRightly rest).anyDepth shown nofun
  | .anyDepth :: .wild _ :: rest => (expandsRightly rest).anyDepth shown nofun

theorem mem_matchingFiles_iff {pattern : PathPattern} {found : List String}
    (ran : CanReturn (matchingFiles files pattern) found) (path : String) :
    path ∈ found ↔ pattern.onlyDirectories = false ∧
      Reaches tree pattern.pieces pattern.start (tree.kind pattern.start) path ∧
      tree.kind path = .file := by
  rw [matchingFiles] at ran
  obtain ⟨startKind, looked, ran⟩ := canReturn_bind_imp' ran
  obtain rfl := shown.kind _ _ looked
  obtain ⟨reached, expanded, ran⟩ := canReturn_bind_imp' ran
  cases asksForDirectories : pattern.onlyDirectories with
  | true =>
    rw [asksForDirectories, if_pos rfl] at ran
    obtain rfl := eq_of_canReturn_pure ran
    simp
  | false =>
    rw [asksForDirectories, if_neg (by decide)] at ran
    have isFile : ∀ path, GivesOnly (do pure ((← files.kind path) == .file) : m Bool)
        (tree.kind path == .file) := fun path => (shown.kind path).bind (.pure _)
    rw [filterM_givesOnly isFile reached _ ran, List.mem_filter,
      expandsRightly shown _ _ _ _ expanded, beq_iff_eq, and_iff_right rfl]

end Expansion
end PathPattern
end AnnotatedApi
