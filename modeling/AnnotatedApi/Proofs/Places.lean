import AnnotatedApi.FileTree.Basic
import AnnotatedApi.FileTree.Path
import AnnotatedApi.Proofs.Text

/-!
# The places of paths

Where a path leads to, and which places it passes, is settled by its pieces alone.
A tree follows the path exactly if every place that is passed is a directory.  The
parent of a path leads to a place that the path passes.
-/

set_option autoImplicit false

namespace AnnotatedApi

open Text

/-! ## Pieces -/

namespace Place

def enter (place : Place) (piece : List Char) : Place :=
  if piece = [] ∨ piece = ['.'] then place
  else if piece = ['.', '.'] then place.dropLast
  else place ++ [String.ofList piece]

def through (place : Place) (pieces : List (List Char)) : Place := pieces.foldl enter place

/-- The places from which the pieces lead on. -/
def passed (place : Place) : List (List Char) → List Place
  | [] => []
  | piece :: rest => place :: passed (enter place piece) rest

theorem through_append (place : Place) (front back : List (List Char)) :
    through place (front ++ back) = through (through place front) back := List.foldl_append

theorem passed_append (place : Place) (front back : List (List Char)) :
    passed place (front ++ back) = passed place front ++ passed (through place front) back := by
  induction front generalizing place with
  | nil => rfl
  | cons piece rest ih =>
    rw [List.cons_append, passed, passed, ih, List.cons_append]
    rfl

end Place

theorem FileTree.follow_eq_ok_iff (tree : FileTree) (start place : Place)
    (pieces : List (List Char)) :
    tree.follow start pieces = .ok place ↔
      (∀ stop ∈ Place.passed start pieces, tree.entryAt stop = some .directory) ∧
        place = Place.through start pieces := by
  induction pieces generalizing start with
  | nil => simp [follow, Place.passed, Place.through, eq_comm]
  | cons piece rest ih =>
    have next : Place.through start (piece :: rest) = Place.through (Place.enter start piece) rest :=
      rfl
    rw [follow, Place.passed, List.forall_mem_cons, next]
    cases here : tree.entryAt start with
    | none => simp
    | some entry =>
      cases entry with
      | file text => simp
      | directory =>
        simp only [true_and, ← ih, Place.enter]
        split
        · rfl
        · split <;> rfl

/-! ## Paths -/

namespace Path

def start (current : Place) (path : String) : Place :=
  if path.toList.head? = some '/' then [] else current

/-- The place that a path names, whether or not anything is there. -/
def destination (current : Place) (path : String) : Place :=
  Place.through (start current path) (splitAt '/' path.toList)

/-- The places that have to be directories so that the path leads anywhere. -/
def stops (current : Place) (path : String) : List Place :=
  Place.passed (start current path) (splitAt '/' path.toList)

end Path

theorem FileTree.place_eq_ok_iff (tree : FileTree) (path : String) (place : Place) :
    tree.place path = .ok place ↔
      path ≠ "" ∧ (∀ stop ∈ Path.stops tree.current path, tree.entryAt stop = some .directory) ∧
        place = Path.destination tree.current path := by
  rw [FileTree.place, Path.stops, Path.destination, ← follow_eq_ok_iff, Path.start]
  by_cases empty : path = ""
  · simp [empty]
  · simp [empty]

namespace Path
variable (current : Place)

/-! ### Cutting a path at a separator -/

section Cut
variable {path : String} {front rest : List Char} (cut : path.toList = front ++ '/' :: rest)
include cut

theorem destination_of_cut :
    destination current path =
      Place.through (Place.through (start current path) (splitAt '/' front)) (splitAt '/' rest) := by
  rw [destination, cut, splitAt_append_separator, Place.through_append]

theorem stops_of_cut :
    stops current path =
      Place.passed (start current path) (splitAt '/' front) ++
        Place.passed (Place.through (start current path) (splitAt '/' front)) (splitAt '/' rest) := by
  rw [stops, cut, splitAt_append_separator, Place.passed_append]

theorem start_of_cut {other : String} (nonempty : other ≠ "") (inFront : other.toList = front) :
    start current path = start current other := by
  have frontNonempty : front ≠ [] := by
    rw [← inFront]
    exact fun empty => nonempty (String.toList_eq_nil_iff.1 empty)
  rw [start, start, cut, inFront, List.head?_append_of_ne_nil _ frontNonempty]

theorem start_of_two_cuts {other : String} {otherRest : List Char}
    (cutOther : other.toList = front ++ '/' :: otherRest) :
    start current path = start current other := by
  rw [start, start, cut, cutOther]
  cases front <;> rfl

end Cut

/-! ### Parents -/

theorem exists_append_of_dropWhile_reverse {α : Type} {filler : α → Bool} {body above : List α}
    {last : α} (reversed : body.reverse.dropWhile filler = last :: above) :
    ∃ tail, tail ≠ [] ∧ body = (above.dropWhile filler).reverse ++ tail := by
  have split : body.reverse = body.reverse.takeWhile filler ++ last :: above := by
    rw [← reversed, List.takeWhile_append_dropWhile]
  have aboveSplit : above.takeWhile filler ++ above.dropWhile filler = above :=
    List.takeWhile_append_dropWhile
  refine ⟨(above.takeWhile filler).reverse ++ last :: (body.reverse.takeWhile filler).reverse,
    by simp, ?_⟩
  rw [← List.append_assoc, ← List.reverse_append, aboveSplit]
  simpa using congrArg List.reverse split

/-- The pieces of a parent are the leading one and what is kept of the others; a tail goes. -/
theorem pieces_of_parent? {path parent : String} (isParent : parent? path = some parent)
    (nonempty : parent ≠ "") :
    ∃ leading kept tail, splitAt '/' path.toList = (leading ++ kept) ++ tail ∧ tail ≠ [] ∧
      (path.toList.head? = some '/' ∧ leading = [[]] ∧
          parent.toList = '/' :: joinWith '/' kept ∨
        ¬ path.toList.head? = some '/' ∧ parent.toList = joinWith '/' (leading ++ kept)) := by
  rw [parent?] at isParent
  generalize isLeading : (if (path.toList.head? == some '/' ||
    (splitAt '/' path.toList).head? == some ['.']) = true
    then (splitAt '/' path.toList).take 1 else []) = leading at isParent
  have front : leading <+: splitAt '/' path.toList := by
    rw [← isLeading]
    split
    · exact List.take_prefix _ _
    · exact List.nil_prefix
  obtain ⟨body, pieces⟩ := front
  have dropped : (splitAt '/' path.toList).drop leading.length = body := by
    rw [← pieces, List.drop_left]
  dsimp only at isParent
  rw [dropped] at isParent
  cases reversed : body.reverse.dropWhile isFiller with
  | nil =>
    rw [reversed] at isParent
    dsimp only at isParent
    split at isParent
    · exact absurd (Option.some.inj isParent).symm nonempty
    · cases isParent
  | cons last above =>
    obtain ⟨tail, tailNonempty, bodySplit⟩ := exists_append_of_dropWhile_reverse reversed
    rw [reversed] at isParent
    dsimp only at isParent
    refine ⟨leading, _, tail, by rw [← pieces, bodySplit, List.append_assoc], tailNonempty, ?_⟩
    by_cases absolute : path.toList.head? = some '/'
    · obtain ⟨rest, isAbsolute⟩ := List.head?_eq_some_iff.1 absolute
      have rootPiece : leading = [[]] := by
        rw [← isLeading, isAbsolute]
        simp [splitAt]
      rw [if_pos (by simpa using absolute)] at isParent
      exact Or.inl ⟨absolute, rootPiece, by rw [← Option.some.inj isParent, String.toList_ofList]⟩
    · rw [if_neg (by simpa using absolute)] at isParent
      exact Or.inr ⟨absolute, by rw [← Option.some.inj isParent, String.toList_ofList]⟩

/-- A parent is what stands before a separator, or the root of an absolute path. -/
theorem cut_of_parent? {path parent : String} (isParent : parent? path = some parent)
    (nonempty : parent ≠ "") :
    ∃ rest, path.toList = parent.toList ++ '/' :: rest ∨
      parent = "/" ∧ path.toList = '/' :: rest := by
  obtain ⟨leading, kept, tail, pieces, tailNonempty, parentIs⟩ := pieces_of_parent? isParent nonempty
  have whole := joinWith_splitAt '/' path.toList
  rw [pieces] at whole
  rcases parentIs with ⟨absolute, rfl, parentIs⟩ | ⟨-, parentIs⟩
  · by_cases atRoot : kept = []
    · obtain ⟨rest, isAbsolute⟩ := List.head?_eq_some_iff.1 absolute
      rw [atRoot] at parentIs
      exact ⟨rest, Or.inr ⟨String.toList_inj.1 parentIs, isAbsolute⟩⟩
    · refine ⟨joinWith '/' tail, Or.inl ?_⟩
      rw [← whole, joinWith_append '/' (by simp) tailNonempty,
        joinWith_append '/' (List.cons_ne_nil _ _) atRoot, parentIs]
      rfl
  · have keptNonempty : leading ++ kept ≠ [] := by
      intro empty
      rw [empty] at parentIs
      exact nonempty (String.toList_eq_nil_iff.1 parentIs)
    refine ⟨joinWith '/' tail, Or.inl ?_⟩
    rw [← whole, joinWith_append '/' keptNonempty tailNonempty, parentIs]

structure OnTheWay (first path : String) : Prop where
  destination : destination current first ∈ stops current path
  stops : ∀ stop ∈ stops current first, stop ∈ stops current path

variable {current}

theorem OnTheWay.trans {first second path : String} (one : OnTheWay current first second)
    (two : OnTheWay current second path) : OnTheWay current first path where
  destination := two.stops _ one.destination
  stops := fun stop passed => two.stops stop (one.stops stop passed)

theorem onTheWay_of_parent? {path parent : String} (isParent : parent? path = some parent)
    (nonempty : parent ≠ "") : OnTheWay current parent path := by
  obtain ⟨rest, cut | ⟨rfl, isAbsolute⟩⟩ := cut_of_parent? isParent nonempty
  · have passed := stops_of_cut current cut
    obtain ⟨piece, pieces, split⟩ := List.exists_cons_of_ne_nil (splitAt_ne_nil '/' rest)
    rw [start_of_cut current cut nonempty rfl, split] at passed
    constructor
    · rw [passed]
      exact List.mem_append_right _ List.mem_cons_self
    · intro stop among
      rw [passed]
      exact List.mem_append_left _ among
  · have atRoot : [] ∈ Path.stops current path := by
      rw [Path.stops, start, isAbsolute, splitAt, if_pos rfl]
      exact List.mem_cons_self
    constructor
    · exact atRoot
    · intro stop among
      have isRoot : stop = [] := by
        have passed : Path.stops current "/" = [[], []] := by
          simp [Path.stops, start, splitAt, Place.passed, Place.enter]
        simpa [passed] using among
      rwa [isRoot]

/-- The ancestors of a path that is on the way are on the way. -/
theorem onTheWay_of_mem_ancestors {first path : String} (count : Nat)
    (way : first ≠ "" → OnTheWay current first path) {directory : String}
    (among : directory ∈ ancestors count first) (nonempty : directory ≠ "") :
    OnTheWay current directory path := by
  induction count generalizing first with
  | zero => cases among
  | succ count ih =>
    rw [ancestors] at among
    cases isParent : parent? first with
    | none =>
      rw [isParent] at among
      obtain rfl := List.mem_singleton.1 among
      exact way nonempty
    | some parent =>
      rw [isParent] at among
      have firstNonempty : first ≠ "" := by
        rintro rfl
        cases isParent
      rcases List.mem_cons.1 among with rfl | among
      · exact way nonempty
      · apply ih _ among
        intro parentNonempty
        exact (onTheWay_of_parent? isParent parentNonempty).trans (way firstNonempty)

/-! ### Separators at the end -/

theorem through_separators (place : Place) {rest : List Char} (separators : ∀ c ∈ rest, c = '/') :
    Place.through place (splitAt '/' rest) = place := by
  induction rest with
  | nil => rfl
  | cons c rest ih =>
    rw [List.forall_mem_cons] at separators
    rw [splitAt, if_pos separators.1]
    exact ih separators.2

theorem destination_withoutFinalSeparators (path : String) :
    destination current (FileTree.withoutFinalSeparators path) = destination current path := by
  rw [FileTree.withoutFinalSeparators]
  cases stem : path.toList.reverse.dropWhile (· == '/') with
  | nil => rfl
  | cons last before =>
    have split : path.toList = (last :: before).reverse ++
        (path.toList.reverse.takeWhile (· == '/')).reverse := by
      rw [← stem, ← List.reverse_append, List.takeWhile_append_dropWhile, List.reverse_reverse]
    have separators : ∀ c ∈ (path.toList.reverse.takeWhile (· == '/')).reverse, c = '/' := by
      intro c among
      simpa using List.mem_takeWhile_imp (List.mem_reverse.1 among)
    generalize (path.toList.reverse.takeWhile (· == '/')).reverse = final at split separators
    change destination current (String.ofList (last :: before).reverse) = _
    cases final with
    | nil =>
      rw [List.append_nil] at split
      rw [← split, String.ofList_toList]
    | cons c rest =>
      rw [List.forall_mem_cons] at separators
      have nonempty : String.ofList (last :: before).reverse ≠ "" := by simp [← String.toList_inj]
      have cut : path.toList = (String.ofList (last :: before).reverse).toList ++ '/' :: rest := by
        rw [split, separators.1, String.toList_ofList]
      rw [destination_of_cut current cut, through_separators _ separators.2,
        start_of_cut current cut nonempty rfl, destination]

/-! ### A name in a directory -/

section Join
variable {directory name : String} (nonempty : directory ≠ "") (plain : '/' ∉ name.toList)
include nonempty plain

/-- The directory, its final separator apart, and the path of the name in it are cut alike. -/
theorem toList_join : ∃ front : List Char,
    (join directory name).toList = front ++ '/' :: name.toList ∧
      (directory.toList = front ∨ directory.toList = front ++ ['/']) := by
  have relative : ¬ name.toList.head? = some '/' := fun absolute =>
    plain (List.mem_of_mem_head? absolute)
  rw [join, if_neg relative]
  by_cases ended : directory.toList.getLast? = some '/'
  · obtain ⟨front, split⟩ := List.getLast?_eq_some_iff.1 ended
    refine ⟨front, ?_, Or.inr split⟩
    rw [if_pos (Or.inr ended), String.toList_append, split, List.append_assoc]
    rfl
  · refine ⟨directory.toList, ?_, Or.inl rfl⟩
    have whole : ¬ (directory.isEmpty = true ∨ directory.toList.getLast? = some '/') := by
      rw [String.isEmpty_iff]
      exact not_or.2 ⟨nonempty, ended⟩
    rw [if_neg whole, String.toList_append, String.toList_append, List.append_assoc]
    rfl

theorem start_join : start current (join directory name) = start current directory := by
  obtain ⟨front, joined, whole | ended⟩ := toList_join nonempty plain
  · exact start_of_cut current joined nonempty whole
  · exact start_of_two_cuts current joined ended

theorem destination_join (named : name ≠ "" ∧ name ≠ "." ∧ name ≠ "..") :
    destination current (join directory name) = destination current directory ++ [name] := by
  have entered : ∀ place, Place.through place (splitAt '/' name.toList) = place ++ [name] := by
    intro place
    have notFiller : ¬ (name.toList = [] ∨ name.toList = ['.']) := by
      rintro (empty | dot)
      · exact named.1 (String.toList_inj.1 empty)
      · exact named.2.1 (String.toList_inj.1 dot)
    have notUp : ¬ name.toList = ['.', '.'] := fun dots => named.2.2 (String.toList_inj.1 dots)
    rw [splitAt_of_not_mem '/' plain, Place.through, List.foldl_cons, List.foldl_nil, Place.enter,
      if_neg notFiller, if_neg notUp, String.ofList_toList]
  obtain ⟨front, joined, ending⟩ := toList_join nonempty plain
  rw [destination_of_cut current joined, entered, start_join nonempty plain]
  rcases ending with whole | ended
  · rw [destination, whole]
  · rw [destination_of_cut current ended]
    rfl

theorem mem_stops_join (stop : Place) :
    stop ∈ stops current (join directory name) ↔
      stop ∈ stops current directory ∨ stop = destination current directory := by
  obtain ⟨front, joined, ending⟩ := toList_join nonempty plain
  have passed := stops_of_cut current joined
  rw [splitAt_of_not_mem '/' plain, start_join nonempty plain] at passed
  rw [passed]
  rcases ending with whole | ended
  · simp [stops, destination, whole, Place.passed]
  · rw [destination_of_cut current ended, stops_of_cut current ended]
    simp [splitAt, Place.passed, Place.through, Place.enter]

end Join

end Path
end AnnotatedApi
