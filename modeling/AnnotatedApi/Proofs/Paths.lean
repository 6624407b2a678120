import AnnotatedApi.Proofs.Catalogue
import AnnotatedApi.Proofs.Run

/-!
# The paths of a document

Grouping keeps, for every path and method, the last operation placed there, and
never leaves a path without methods.  The paths of a document are therefore known
from the given procedures of its controller, place by place, and two lists of
procedures with the same last words at every place give one document.
-/

set_option autoImplicit false

namespace AnnotatedApi

/-! ## Grouping -/

def operationAt? (paths : KeyMap (KeyMap Operation)) (path method : String) : Option Operation :=
  (KeyMap.get? paths path).bind fun methods => KeyMap.get? methods method

theorem operationAt?_addOperation (paths : KeyMap (KeyMap Operation)) (placed : PlacedOperation)
    (path method : String) :
    operationAt? (addOperation paths placed) path method =
      if path = placed.path ∧ method = placed.method then some placed.operation
      else operationAt? paths path method := by
  rw [operationAt?, addOperation, KeyMap.get?_insert]
  by_cases samePath : path = placed.path
  · subst samePath
    rw [if_pos rfl, Option.bind_some, KeyMap.get?_insert, operationAt?]
    by_cases sameMethod : method = placed.method
    · simp [sameMethod]
    · cases KeyMap.get? paths placed.path <;> simp [sameMethod]
  · simp [samePath, operationAt?]

def PlacedOperation.isAt (path method : String) (placed : PlacedOperation) : Bool :=
  path = placed.path ∧ method = placed.method

theorem operationAt?_foldl (placed : List PlacedOperation) (paths : KeyMap (KeyMap Operation))
    (path method : String) :
    operationAt? (placed.foldl addOperation paths) path method =
      ((placed.filter (PlacedOperation.isAt path method)).getLast?.map (·.operation)).or
        (operationAt? paths path method) := by
  induction placed generalizing paths with
  | nil => simp
  | cons one rest ih =>
    rw [List.foldl_cons, ih, operationAt?_addOperation]
    by_cases here : path = one.path ∧ method = one.method
    · have isHere : one.isAt path method = true := by simp [PlacedOperation.isAt, here]
      rw [List.filter_cons_of_pos isHere, if_pos here, List.getLast?_cons]
      cases (rest.filter (PlacedOperation.isAt path method)).getLast? <;> simp
    · have isElsewhere : ¬ one.isAt path method = true := by simpa [PlacedOperation.isAt] using here
      rw [List.filter_cons_of_neg isElsewhere, if_neg here]

theorem operationAt?_groupOperations (placed : List PlacedOperation) (path method : String) :
    operationAt? (groupOperations placed) path method =
      (placed.filter (PlacedOperation.isAt path method)).getLast?.map (·.operation) := by
  rw [groupOperations, operationAt?_foldl]
  simp [operationAt?]

/-! ## The last procedure at a place -/

/-- A controller offers a procedure at the path and the method that its comment says first. -/
def AnnotatedClass.OffersAt (controller : AnnotatedClass) (path method : String)
    (procedure : Procedure) : Prop :=
  controller.Offers procedure ∧ path = (Comment.parse procedure.comment).path ∧
    method = (Comment.parse procedure.comment).method

instance (controller : AnnotatedClass) (path method : String) (procedure : Procedure) :
    Decidable (controller.OffersAt path method procedure) :=
  inferInstanceAs (Decidable (_ ∧ _ ∧ _))

namespace ControllerContext

theorem isAt_place_iff (context : ControllerContext) (procedure : Procedure) (comment : Comment)
    (path method : String) :
    (context.place procedure comment).isAt path method = true ↔
      path = comment.path ∧ method = comment.method := by
  rw [place, PlacedOperation.isAt, decide_eq_true_eq]

theorem filter_isAt_offered (context : ControllerContext) (controller : AnnotatedClass)
    (procedures : List Procedure) (path method : String) :
    (context.offered controller procedures).filter (PlacedOperation.isAt path method) =
      (procedures.filter fun procedure => controller.OffersAt path method procedure).map
        fun procedure => context.place procedure (Comment.parse procedure.comment) := by
  induction procedures with
  | nil => rfl
  | cons procedure rest ih =>
    have isAt := context.isAt_place_iff procedure (Comment.parse procedure.comment) path method
    rw [offered_cons]
    by_cases here : controller.OffersAt path method procedure
    · rw [if_pos here.1, List.filter_cons_of_pos (isAt.2 here.2), ih,
        List.filter_cons_of_pos (by simpa using here), List.map_cons]
    · rw [List.filter_cons_of_neg (by simpa using here), ← ih]
      by_cases offers : controller.Offers procedure
      · rw [if_pos offers, List.filter_cons_of_neg fun place => here ⟨offers, isAt.1 place⟩]
      · rw [if_neg offers]

theorem operationAt?_offered (context : ControllerContext) (controller : AnnotatedClass)
    (procedures : List Procedure) (path method : String) :
    operationAt? (groupOperations (context.offered controller procedures)) path method =
      (procedures.filter fun procedure =>
        controller.OffersAt path method procedure).getLast?.map fun procedure =>
          (context.place procedure (Comment.parse procedure.comment)).operation := by
  rw [operationAt?_groupOperations, filter_isAt_offered, List.getLast?_map, Option.map_map]
  rfl

end ControllerContext

/-- The last element with a property is followed by elements without it. -/
theorem getLast?_filter_eq_some_iff {α : Type} (has : α → Prop) [DecidablePred has] (xs : List α)
    (x : α) :
    (xs.filter fun y => has y).getLast? = some x ↔
      ∃ before after, xs = before ++ x :: after ∧ has x ∧ ∀ y ∈ after, ¬ has y := by
  rw [List.getLast?_filter, List.find?_eq_some_iff_append]
  constructor
  · rintro ⟨here, after, before, split, later⟩
    refine ⟨before.reverse, after.reverse, ?_, by simpa using here, by simpa using later⟩
    rw [← xs.reverse_reverse, split]
    simp
  · rintro ⟨before, after, rfl, here, later⟩
    exact ⟨by simpa using here, after.reverse, before.reverse, by simp, by simpa using later⟩

def AnnotatedClass.LastAt (controller : AnnotatedClass) (path method : String)
    (procedure : Procedure) : Prop :=
  ∃ before after, controller.procedures = before ++ procedure :: after ∧
    controller.OffersAt path method procedure ∧
    ∀ later ∈ after, ¬ controller.OffersAt path method later

theorem AnnotatedClass.lastAt_iff (controller : AnnotatedClass) (path method : String)
    (procedure : Procedure) :
    controller.LastAt path method procedure ↔
      (controller.procedures.filter fun other =>
        controller.OffersAt path method other).getLast? = some procedure :=
  (getLast?_filter_eq_some_iff (controller.OffersAt path method) _ _).symm

/-! ## Changed operations -/

def mapOperations (change : Operation → Operation) (paths : KeyMap (KeyMap Operation)) :
    KeyMap (KeyMap Operation) :=
  KeyMap.mapValues (KeyMap.mapValues change) paths

def PlacedOperation.map (change : Operation → Operation) (placed : PlacedOperation) :
    PlacedOperation :=
  { placed with operation := change placed.operation }

section Changes
variable (change : Operation → Operation)

theorem addOperation_map (paths : KeyMap (KeyMap Operation)) (placed : PlacedOperation) :
    addOperation (mapOperations change paths) (placed.map change) =
      mapOperations change (addOperation paths placed) := by
  rw [addOperation, addOperation, mapOperations, mapOperations, KeyMap.mapValues_insert,
    KeyMap.mapValues_insert, PlacedOperation.map, KeyMap.get?_mapValues]
  cases KeyMap.get? paths placed.path <;> rfl

theorem groupOperations_map (placed : List PlacedOperation) :
    groupOperations (placed.map (PlacedOperation.map change)) =
      mapOperations change (groupOperations placed) := by
  have run : ∀ paths, (placed.map (PlacedOperation.map change)).foldl addOperation
      (mapOperations change paths) = mapOperations change (placed.foldl addOperation paths) := by
    induction placed with
    | nil => exact fun _ => rfl
    | cons one rest ih =>
      intro paths
      rw [List.map_cons, List.foldl_cons, List.foldl_cons, addOperation_map, ih]
  exact run []

end Changes

/-! ## Well-kept paths -/

/-- Paths and methods ascend, and every path has a method. -/
def WellKept (paths : KeyMap (KeyMap Operation)) : Prop :=
  KeyMap.Ascending paths ∧ ∀ path methods, (path, methods) ∈ paths →
    methods ≠ [] ∧ KeyMap.Ascending methods

theorem insert_ne_nil {α : Type} (map : KeyMap α) (key : String) (value : α) :
    KeyMap.insert map key value ≠ [] := by
  intro empty
  have found := KeyMap.get?_insert_self map key value
  rw [empty] at found
  cases found

theorem wellKept_addOperation {paths : KeyMap (KeyMap Operation)} (kept : WellKept paths)
    (placed : PlacedOperation) : WellKept (addOperation paths placed) := by
  refine ⟨KeyMap.ascending_insert kept.1 _ _, ?_⟩
  intro path methods among
  rcases KeyMap.mem_insert among with same | among
  · obtain ⟨-, rfl⟩ := Prod.mk.inj same
    refine ⟨insert_ne_nil _ _ _, KeyMap.ascending_insert ?_ _ _⟩
    cases found : KeyMap.get? paths placed.path with
    | none => exact List.Pairwise.nil
    | some earlier => exact (kept.2 placed.path earlier (KeyMap.mem_of_get?_eq_some found)).2
  · exact kept.2 path methods among

theorem wellKept_groupOperations (placed : List PlacedOperation) :
    WellKept (groupOperations placed) := by
  have run : ∀ paths, WellKept paths → WellKept (placed.foldl addOperation paths) := by
    induction placed with
    | nil => exact fun _ kept => kept
    | cons one rest ih => exact fun paths kept => ih _ (wellKept_addOperation kept one)
  exact run [] ⟨List.Pairwise.nil, nofun⟩

theorem exists_operationAt?_of_get? {paths : KeyMap (KeyMap Operation)} (kept : WellKept paths)
    {path : String} {methods : KeyMap Operation} (found : KeyMap.get? paths path = some methods) :
    ∃ method operation, operationAt? paths path method = some operation := by
  have nonempty := (kept.2 path methods (KeyMap.mem_of_get?_eq_some found)).1
  cases methods with
  | nil => exact absurd rfl nonempty
  | cons pair rest => exact ⟨pair.1, pair.2, by simp [operationAt?, found, KeyMap.get?]⟩

theorem get?_eq_none_of_operationAt?_eq_none {paths : KeyMap (KeyMap Operation)}
    (kept : WellKept paths) {path : String}
    (absent : ∀ method, operationAt? paths path method = none) :
    KeyMap.get? paths path = none := by
  cases found : KeyMap.get? paths path with
  | none => rfl
  | some methods =>
    obtain ⟨method, operation, present⟩ := exists_operationAt?_of_get? kept found
    rw [absent method] at present
    cases present

/-- Well-kept paths are what their operations say. -/
theorem paths_ext {first second : KeyMap (KeyMap Operation)} (kept : WellKept first)
    (kept' : WellKept second)
    (same : ∀ path method, operationAt? first path method = operationAt? second path method) :
    first = second := by
  refine KeyMap.ext_of_ascending kept.1 kept'.1 fun path => ?_
  have samePath := same path
  cases found : KeyMap.get? first path with
  | none =>
    have absent : ∀ method, operationAt? second path method = none := by
      intro method
      rw [← samePath, operationAt?, found, Option.bind_none]
    exact (get?_eq_none_of_operationAt?_eq_none kept' absent).symm
  | some methods =>
    cases found' : KeyMap.get? second path with
    | none =>
      have absent : ∀ method, operationAt? first path method = none := by
        intro method
        rw [samePath, operationAt?, found', Option.bind_none]
      rw [get?_eq_none_of_operationAt?_eq_none kept absent] at found
      cases found
    | some methods' =>
      have ascending := (kept.2 path methods (KeyMap.mem_of_get?_eq_some found)).2
      have ascending' := (kept'.2 path methods' (KeyMap.mem_of_get?_eq_some found')).2
      refine congrArg some (KeyMap.ext_of_ascending ascending ascending' fun method => ?_)
      simpa [operationAt?, found, found'] using samePath method

end AnnotatedApi
