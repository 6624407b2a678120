import AnnotatedApi.Proofs.Places

/-!
# Spellings of a place

Paths are compared by their components, and where a path leads to is settled by them as well.
So two spellings with the same components name one place; the converse holds of paths
without double dots that start in the same way.
-/

set_option autoImplicit false

namespace AnnotatedApi

open Text

/-! ## Following components -/

namespace Component

def enter (place : Place) : Component → Place
  | .root => []
  | .here => place
  | .parent => place.dropLast
  | .name text => place ++ [text]

theorem through_eq_foldl (place : Place) (pieces : List (List Char)) :
    Place.through place pieces = (pieces.filterMap ofPiece?).foldl enter place := by
  induction pieces generalizing place with
  | nil => rfl
  | cons piece pieces ih =>
    have step : Place.through place (piece :: pieces) =
        Place.through (Place.enter place piece) pieces := rfl
    rw [step, ih, Place.enter, List.filterMap_cons, ofPiece?]
    by_cases filler : piece = [] ∨ piece = ['.']
    · rw [if_pos filler, if_pos filler]
    · rw [if_neg filler, if_neg filler]
      by_cases up : piece = ['.', '.']
      · rw [if_pos up, if_pos up]
        rfl
      · rw [if_neg up, if_neg up]
        rfl

/-- The place that a path leads to, from its components. -/
theorem destination_eq_foldl (current : Place) (path : String) :
    Path.destination current path = (Path.components path).foldl enter current := by
  rw [Path.destination, through_eq_foldl, Path.components, List.foldl_append, Path.start]
  congr 1
  split
  · rfl
  · split <;> rfl

/-- Components that are names, behind a root or behind nothing. -/
def Straight (absolute : Bool) (components : List Component) : Prop :=
  ∃ names : List String,
    components = (if absolute then [.root] else []) ++ names.map Component.name

theorem foldl_enter_names (names : List String) (place : Place) :
    (names.map Component.name).foldl enter place = place ++ names := by
  induction names generalizing place with
  | nil => simp
  | cons name names ih =>
    rw [List.map_cons, List.foldl_cons, ih, enter, List.append_assoc]
    rfl

/-- Straight components are known from the place that they lead to. -/
theorem Straight.eq_of_foldl_enter {absolute : Bool} {components components' : List Component}
    (straight : Straight absolute components) (straight' : Straight absolute components')
    {current : Place} (same : components.foldl enter current = components'.foldl enter current) :
    components = components' := by
  obtain ⟨names, rfl⟩ := straight
  obtain ⟨names', rfl⟩ := straight'
  rw [List.foldl_append, List.foldl_append, foldl_enter_names, foldl_enter_names] at same
  rw [List.append_cancel_left same]

theorem Straight.append_name {absolute : Bool} {components : List Component}
    (straight : Straight absolute components) (text : String) :
    Straight absolute (components ++ [.name text]) := by
  obtain ⟨names, rfl⟩ := straight
  exact ⟨names ++ [text], by simp⟩

theorem Straight.parent_not_mem {absolute : Bool} {components : List Component}
    (straight : Straight absolute components) : .parent ∉ components := by
  obtain ⟨names, rfl⟩ := straight
  cases absolute <;> simp

theorem Straight.here_not_mem {absolute : Bool} {components : List Component}
    (straight : Straight absolute components) : .here ∉ components := by
  obtain ⟨names, rfl⟩ := straight
  cases absolute <;> simp

theorem Straight.root_mem_iff {absolute : Bool} {components : List Component}
    (straight : Straight absolute components) : .root ∈ components ↔ absolute = true := by
  obtain ⟨names, rfl⟩ := straight
  cases absolute <;> simp

end Component

/-! ## The order of paths -/

namespace Component

theorem before_iff (first second : Component) :
    first.before second = true ↔ first.rank < second.rank ∨
      ∃ text text', first = .name text ∧ second = .name text' ∧ text < text' := by
  cases first <;> cases second <;> simp [before, rank]

theorem not_before_self (component : Component) : ¬ component.before component = true := by
  rw [before_iff]
  rintro (less | ⟨text, text', rfl, same, less⟩)
  · exact Nat.lt_irrefl _ less
  · cases same
    exact String.lt_irrefl text less

theorem before_trans {first second third : Component} (one : first.before second = true)
    (two : second.before third = true) : first.before third = true := by
  rw [before_iff] at *
  rcases one with one | ⟨text, text', rfl, rfl, one⟩
  · rcases two with two | ⟨_, _, rfl, rfl, -⟩
    · exact Or.inl (Nat.lt_trans one two)
    · exact Or.inl one
  · rcases two with two | ⟨_, last, same, rfl, two⟩
    · exact Or.inl two
    · cases same
      exact Or.inr ⟨text, last, rfl, rfl, String.lt_trans one two⟩

theorem before_or_before {first second : Component} (different : first ≠ second) :
    first.before second = true ∨ second.before first = true := by
  cases first with
  | name text =>
    cases second with
    | name text' =>
      have texts : text ≠ text' := fun same => different (congrArg _ same)
      simp only [before, decide_eq_true_eq]
      grind
    | _ => exact Or.inr (by simp [before, rank])
  | _ => cases second <;> simp_all [before, rank]

end Component

namespace Path

theorem componentsBefore_cons (first second : Component) (others others' : List Component) :
    componentsBefore (first :: others) (second :: others') = true ↔
      first.before second = true ∨ first = second ∧ componentsBefore others others' = true := by
  rw [componentsBefore]
  by_cases same : first = second
  · subst same
    simp [Component.not_before_self]
  · simp [same]

theorem not_componentsBefore_self (components : List Component) :
    ¬ componentsBefore components components = true := by
  induction components with
  | nil => simp [componentsBefore]
  | cons first others ih =>
    rw [componentsBefore_cons]
    rintro (before | ⟨-, before⟩)
    · exact first.not_before_self before
    · exact ih before

theorem componentsBefore_trans {first second third : List Component}
    (one : componentsBefore first second = true) (two : componentsBefore second third = true) :
    componentsBefore first third = true := by
  induction first generalizing second third with
  | nil =>
    cases third with
    | nil => cases second <;> simp [componentsBefore] at two
    | cons c third => rfl
  | cons a first ih =>
    cases second with
    | nil => simp [componentsBefore] at one
    | cons b second =>
      cases third with
      | nil => simp [componentsBefore] at two
      | cons c third =>
        rw [componentsBefore_cons] at *
        rcases one with one | ⟨rfl, one⟩
        · rcases two with two | ⟨rfl, -⟩
          · exact Or.inl (Component.before_trans one two)
          · exact Or.inl one
        · rcases two with two | ⟨rfl, two⟩
          · exact Or.inl two
          · exact Or.inr ⟨rfl, ih one two⟩

theorem componentsBefore_or_before {first second : List Component} (different : first ≠ second) :
    componentsBefore first second = true ∨ componentsBefore second first = true := by
  induction first generalizing second with
  | nil =>
    cases second with
    | nil => exact absurd rfl different
    | cons b second => exact Or.inl rfl
  | cons a first ih =>
    cases second with
    | nil => exact Or.inr rfl
    | cons b second =>
      simp only [componentsBefore_cons]
      by_cases same : a = b
      · subst same
        have others : first ≠ second := fun equal => different (congrArg _ equal)
        rcases ih others with before | before
        · exact Or.inl (Or.inr ⟨rfl, before⟩)
        · exact Or.inr (Or.inr ⟨rfl, before⟩)
      · rcases Component.before_or_before same with before | before
        · exact Or.inl (Or.inl before)
        · exact Or.inr (Or.inl before)

def Precedes (first second : List Component) : Prop := componentsBefore first second = true

instance : Std.Irrefl Precedes := ⟨not_componentsBefore_self⟩

instance : Std.Antisymm Precedes :=
  ⟨fun first _ one two => absurd (componentsBefore_trans one two) (not_componentsBefore_self first)⟩

/-! ## Components of joined paths -/

/-- The components that only the start of a path decides on. -/
def leading (chars : List Char) : List Component :=
  if chars.head? = some '/' then [.root]
  else if (splitAt '/' chars).head? = some ['.'] then [.here]
  else []

theorem components_eq (path : String) :
    components path =
      leading path.toList ++ (splitAt '/' path.toList).filterMap Component.ofPiece? := rfl

theorem root_mem_components_iff (path : String) :
    .root ∈ components path ↔ path.toList.head? = some '/' := by
  have noRoot : .root ∉ (splitAt '/' path.toList).filterMap Component.ofPiece? := by
    rw [List.mem_filterMap]
    rintro ⟨piece, -, isRoot⟩
    rw [Component.ofPiece?] at isRoot
    split at isRoot
    · cases isRoot
    · split at isRoot <;> cases isRoot
  rw [components_eq, List.mem_append, or_iff_left noRoot, leading]
  by_cases absolute : path.toList.head? = some '/'
  · simp [absolute]
  · rw [if_neg absolute]
    split <;> simp [absolute]

theorem leading_append_separator {front : List Char} (nonempty : front ≠ []) (rest : List Char) :
    leading (front ++ '/' :: rest) = leading front := by
  rw [leading, leading, splitAt_append_separator, List.head?_append_of_ne_nil _ nonempty,
    List.head?_append_of_ne_nil _ (splitAt_ne_nil '/' front)]

theorem leading_two_ends (front rest rest' : List Char) :
    leading (front ++ '/' :: rest) = leading (front ++ '/' :: rest') := by
  cases front with
  | nil => rfl
  | cons c front =>
    rw [leading_append_separator (List.cons_ne_nil c front),
      leading_append_separator (List.cons_ne_nil c front)]

theorem components_join {directory name : String} (nonempty : directory ≠ "")
    (plain : '/' ∉ name.toList) :
    components (join directory name) =
      components directory ++ (Component.ofPiece? name.toList).toList := by
  obtain ⟨front, joined, ending⟩ := toList_join nonempty plain
  have behind : [name.toList].filterMap Component.ofPiece? =
      (Component.ofPiece? name.toList).toList := by
    cases piece : Component.ofPiece? name.toList <;> simp [piece]
  rw [components_eq, components_eq, joined, splitAt_append_separator, List.filterMap_append,
    splitAt_of_not_mem '/' plain, behind, ← List.append_assoc]
  rcases ending with whole | ended
  · have frontNonempty : front ≠ [] := by
      rw [← whole]
      exact fun empty => nonempty (String.toList_eq_nil_iff.1 empty)
    rw [whole, leading_append_separator frontNonempty]
  · rw [ended, splitAt_append_separator, List.filterMap_append, leading_two_ends front _ []]
    simp [splitAt, Component.ofPiece?]

theorem join_ne_empty {directory name : String} (nonempty : directory ≠ "")
    (plain : '/' ∉ name.toList) : join directory name ≠ "" := by
  obtain ⟨front, joined, -⟩ := toList_join nonempty plain
  intro empty
  rw [empty] at joined
  simp at joined

end Path

/-! ## Names -/

structure IsName (name : String) : Prop where
  nonempty : name ≠ ""
  notHere : name ≠ "."
  notParent : name ≠ ".."
  plain : '/' ∉ name.toList

instance (name : String) : Decidable (IsName name) :=
  decidable_of_iff (name ≠ "" ∧ name ≠ "." ∧ name ≠ ".." ∧ '/' ∉ name.toList)
    ⟨fun ⟨nonempty, notHere, notParent, plain⟩ => ⟨nonempty, notHere, notParent, plain⟩,
      fun ⟨nonempty, notHere, notParent, plain⟩ => ⟨nonempty, notHere, notParent, plain⟩⟩

namespace IsName
variable {name : String} (isName : IsName name)
include isName

theorem ofPiece? : Component.ofPiece? name.toList = some (.name name) := by
  have notFiller : ¬ (name.toList = [] ∨ name.toList = ['.']) := by
    rintro (empty | dot)
    · exact isName.nonempty (String.toList_inj.1 empty)
    · exact isName.notHere (String.toList_inj.1 dot)
  have notUp : ¬ name.toList = ['.', '.'] := fun dots => isName.notParent (String.toList_inj.1 dots)
  rw [Component.ofPiece?, if_neg notFiller, if_neg notUp, String.ofList_toList]

theorem components : Path.components name = [.name name] := by
  have relative : ¬ name.toList.head? = some '/' := fun absolute =>
    isName.plain (List.mem_of_mem_head? absolute)
  have notDot : ¬ (splitAt '/' name.toList).head? = some ['.'] := by
    rw [splitAt_of_not_mem '/' isName.plain]
    intro dot
    exact isName.notHere (String.toList_inj.1 (Option.some.inj dot))
  rw [Path.components_eq, Path.leading, if_neg relative, if_neg notDot,
    splitAt_of_not_mem '/' isName.plain]
  simp [isName.ofPiece?]

theorem components_join {directory : String} (nonempty : directory ≠ "") :
    Path.components (Path.join directory name) = Path.components directory ++ [.name name] := by
  rw [Path.components_join nonempty isName.plain, isName.ofPiece?]
  rfl

end IsName
end AnnotatedApi
