import AnnotatedApi.Proofs.Spellings

/-!
# Trees with names

In a tree whose places are distinct and reached by names, a directory lists a name for
everything right below it, and the path of the directory with the name leads there.
-/

set_option autoImplicit false

namespace AnnotatedApi

namespace FileTree

/-- Every place is there once, and names lead to it. -/
structure WellFormed (tree : FileTree) : Prop where
  distinct : (tree.entries.map Prod.fst).Nodup
  named : ∀ place ∈ tree.entries.map Prod.fst, ∀ name ∈ place, IsName name

instance (tree : FileTree) : Decidable tree.WellFormed :=
  decidable_of_iff ((tree.entries.map Prod.fst).Nodup ∧
      ∀ place ∈ tree.entries.map Prod.fst, ∀ name ∈ place, IsName name)
    ⟨fun ⟨distinct, named⟩ => ⟨distinct, named⟩, fun ⟨distinct, named⟩ => ⟨distinct, named⟩⟩

theorem perm_insertByName {α : Type} (before : α → α → Bool) (item : α) (items : List α) :
    (insertByName before item items).Perm (item :: items) := by
  induction items with
  | nil => exact .refl _
  | cons other rest ih =>
    rw [insertByName]
    split
    · exact .refl _
    · exact (ih.cons other).trans (.swap item other rest)

theorem perm_foldr_insertByName {α : Type} (before : α → α → Bool) (items : List α) :
    (items.foldr (insertByName before) []).Perm items := by
  induction items with
  | nil => exact .refl _
  | cons item rest ih => exact (perm_insertByName before item _).trans (ih.cons item)

theorem mem_belowPlace_iff (tree : FileTree) (directory : Place) (names : List String)
    (kind : Kind) :
    (names, kind) ∈ tree.belowPlace directory ↔
      names ≠ [] ∧ ∃ entry, (directory ++ names, entry) ∈ tree.entries ∧ entry.kind = kind := by
  rw [belowPlace, (perm_foldr_insertByName _ _).mem_iff, List.mem_filterMap]
  constructor
  · rintro ⟨⟨place, entry⟩, among, inside⟩
    dsimp only at inside
    split at inside
    · next isInside =>
      rw [List.isPrefixOf?_eq_some_iff_append_eq] at isInside
      cases inside
      exact ⟨List.cons_ne_nil _ _, entry, isInside ▸ among, rfl⟩
    · cases inside
  · rintro ⟨nonempty, entry, among, rfl⟩
    obtain ⟨name, others, rfl⟩ := List.exists_cons_of_ne_nil nonempty
    have isInside : directory.isPrefixOf? (directory ++ name :: others) = some (name :: others) :=
      List.isPrefixOf?_eq_some_iff_append_eq.2 rfl
    exact ⟨_, among, by simp [isInside]⟩

theorem lookupEntry_of_mem {entries : List (Place × Entry)}
    (distinct : (entries.map Prod.fst).Nodup) {place : Place} {entry : Entry}
    (among : (place, entry) ∈ entries) :
    lookupEntry entries place = some entry := by
  induction entries with
  | nil => cases among
  | cons head rest ih =>
    obtain ⟨other, kept⟩ := head
    rw [List.map_cons, List.nodup_cons] at distinct
    rw [lookupEntry]
    rcases List.mem_cons.1 among with same | among
    · cases same
      exact if_pos rfl
    · have different : other ≠ place := by
        rintro rfl
        exact distinct.1 (List.mem_map.2 ⟨_, among, rfl⟩)
      rw [if_neg different, ih distinct.2 among]

/-- Something is at a path if its place can be reached and has it. -/
theorem kind_eq_iff (tree : FileTree) (path : String) {kind : Kind} (there : kind ≠ .missing) :
    tree.kind path = kind ↔ path ≠ "" ∧
      (∀ stop ∈ Path.stops tree.current path, tree.entryAt stop = some .directory) ∧
      ∃ entry, tree.entryAt (Path.destination tree.current path) = some entry ∧
        entry.kind = kind := by
  rw [FileTree.kind, find]
  cases followed : tree.place path with
  | error cause =>
    have unreached : ∀ place, tree.place path ≠ .ok place := by simp [followed]
    simp only [bind, Except.bind]
    constructor
    · intro absent
      exact absurd absent.symm there
    · rintro ⟨nonempty, stops, -⟩
      exact absurd ((tree.place_eq_ok_iff path _).2 ⟨nonempty, stops, rfl⟩) (unreached _)
  | ok place =>
    obtain ⟨nonempty, stops, rfl⟩ := (tree.place_eq_ok_iff path place).1 followed
    simp only [bind, Except.bind]
    cases tree.entryAt (Path.destination tree.current path) with
    | none => simp [there.symm]
    | some entry =>
      constructor
      · intro isKind
        exact ⟨nonempty, stops, entry, rfl, isKind⟩
      · rintro ⟨-, -, _, ⟨⟩, isKind⟩
        exact isKind

/-- What a directory lists: a name of it, and what is there under the name. -/
theorem entriesOf_eq_ok {tree : FileTree} {directory : String} {names : List (String × Kind)}
    (read : tree.entriesOf directory = .ok names) :
    directory ≠ "" ∧
      (∀ stop ∈ Path.stops tree.current directory, tree.entryAt stop = some .directory) ∧
      tree.entryAt (Path.destination tree.current directory) = some .directory ∧
      ∀ name kind, (name, kind) ∈ names ↔
        ([name], kind) ∈ tree.belowPlace (Path.destination tree.current directory) := by
  rw [entriesOf] at read
  cases followed : tree.place directory with
  | error cause => simp [followed, bind, Except.bind] at read
  | ok place =>
    obtain ⟨nonempty, stops, rfl⟩ := (tree.place_eq_ok_iff directory place).1 followed
    rw [followed] at read
    simp only [bind, Except.bind] at read
    split at read
    · cases read
    · cases read
    · next isDirectory =>
      refine ⟨nonempty, stops, isDirectory, fun name kind => ?_⟩
      cases read
      rw [List.mem_filterMap]
      constructor
      · rintro ⟨⟨below, kind'⟩, among, single⟩
        dsimp only at single
        split at single
        · cases single
          exact among
        · cases single
      · intro among
        exact ⟨_, among, rfl⟩

namespace WellFormed
variable {tree : FileTree} (wellFormed : tree.WellFormed)
include wellFormed

theorem isName_of_mem_belowPlace {directory : Place} {names : List String} {kind : Kind}
    (among : (names, kind) ∈ tree.belowPlace directory) : ∀ name ∈ names, IsName name := by
  obtain ⟨-, entry, among, -⟩ := (tree.mem_belowPlace_iff directory names kind).1 among
  intro name isName
  exact wellFormed.named _ (List.mem_map.2 ⟨_, among, rfl⟩) name (List.mem_append_right _ isName)

theorem isName_of_mem_below {path : String} {names : List String} {kind : Kind}
    (among : (names, kind) ∈ tree.below path) : ∀ name ∈ names, IsName name := by
  rw [below] at among
  cases followed : tree.place path with
  | error cause => rw [followed] at among; cases among
  | ok place => rw [followed] at among; exact wellFormed.isName_of_mem_belowPlace among

theorem kind_join {directory : String} {names : List (String × Kind)} {name : String} {kind : Kind}
    (read : tree.entriesOf directory = .ok names) (among : (name, kind) ∈ names) :
    IsName name ∧ tree.kind (Path.join directory name) = kind := by
  obtain ⟨nonempty, stops, isDirectory, members⟩ := entriesOf_eq_ok read
  have below := (members name kind).1 among
  have isName := wellFormed.isName_of_mem_belowPlace below name (List.mem_singleton.2 rfl)
  obtain ⟨-, entry, there, rfl⟩ := (tree.mem_belowPlace_iff _ _ _).1 below
  have isThere : entry.kind ≠ .missing := by cases entry <;> simp [Entry.kind]
  refine ⟨isName, (tree.kind_eq_iff _ isThere).2 ⟨?_, ?_, entry, ?_, rfl⟩⟩
  · exact Path.join_ne_empty nonempty isName.plain
  · intro stop passed
    rcases (Path.mem_stops_join nonempty isName.plain stop).1 passed with passed | rfl
    · exact stops stop passed
    · exact isDirectory
  · rw [Path.destination_join nonempty isName.plain
      ⟨isName.nonempty, isName.notHere, isName.notParent⟩, entryAt]
    rw [if_neg (by simp), lookupEntry_of_mem wellFormed.distinct there]

end WellFormed
end FileTree
end AnnotatedApi
