import AnnotatedApi.Proofs.UnreadTags
import Mathlib.Data.List.Induction

/-!
# The occurrences of tags

The map from tag names to values changes its shape when a name comes a second time, and still
holds under every name the values that were added under it, in their order.  So a map says no
more than these values do: in which way the names take turns is forgotten, and nothing else.
-/

set_option autoImplicit false

namespace AnnotatedApi

/-- A value alone, or all of several; nothing at all if there are none. -/
def Occurrences.ofList? : List String → Option Occurrences
  | [] => none
  | [value] => some (.single value)
  | first :: second :: later => some (.multiple (first :: second :: later))

namespace Tags

def valuesUnder (occurrences : List (String × String)) (name : String) : List String :=
  (occurrences.filter (·.1 = name)).map Prod.snd

/-! ## One occurrence more -/

theorem valuesUnder_append_singleton (occurrences : List (String × String)) (name value other : String) :
    valuesUnder (occurrences ++ [(name, value)]) other =
      if name = other then valuesUnder occurrences other ++ [value]
      else valuesUnder occurrences other := by
  rw [valuesUnder, List.filter_append, List.map_append, ← valuesUnder]
  by_cases same : name = other
  · simp [same]
  · simp [same]

theorem ofList_append_singleton (occurrences : List (String × String)) (name value : String) :
    Tags.ofList (occurrences ++ [(name, value)]) = Tags.add (Tags.ofList occurrences) name value := by
  rw [Tags.ofList, List.foldl_append, ← Tags.ofList]
  rfl

/-- The first value stands alone, the second takes it along into a list, and every later one
goes to the end of that list. -/
theorem ofList?_append_singleton (values : List String) (value : String) :
    Occurrences.ofList? (values ++ [value]) = some (grown (Occurrences.ofList? values) value) := by
  match values with
  | [] => rfl
  | [_] => rfl
  | _ :: _ :: _ => rfl

theorem ascending_add {tags : Tags} (ascending : KeyMap.Ascending tags) (name value : String) :
    KeyMap.Ascending (Tags.add tags name value) := by
  rw [Tags.add]
  cases KeyMap.get? tags name with
  | none => exact KeyMap.ascending_insert ascending name _
  | some earlier => exact KeyMap.ascending_insert ascending name _

/-! ## All occurrences -/

theorem ascending_ofList (occurrences : List (String × String)) :
    KeyMap.Ascending (Tags.ofList occurrences) := by
  induction occurrences using List.reverseRecOn with
  | nil => exact List.Pairwise.nil
  | append_singleton occurrences pair ih =>
    rw [ofList_append_singleton]
    exact ascending_add ih pair.1 pair.2

theorem find?_ofList (occurrences : List (String × String)) (name : String) :
    Tags.find? (Tags.ofList occurrences) name =
      Occurrences.ofList? (valuesUnder occurrences name) := by
  induction occurrences using List.reverseRecOn with
  | nil => rfl
  | append_singleton occurrences pair ih =>
    rw [ofList_append_singleton, find?_add, valuesUnder_append_singleton]
    by_cases same : pair.1 = name
    · rw [if_pos same, if_pos same, ofList?_append_singleton, ih]
    · rw [if_neg same, if_neg same, ih]

end Tags

/-! ## What stands under a name -/

namespace Occurrences
variable (values : List String)

theorem ofList?_eq_none_iff : ofList? values = none ↔ values = [] := by
  match values with
  | [] => simp [ofList?]
  | [_] => simp [ofList?]
  | _ :: _ :: _ => simp [ofList?]

theorem ofList?_eq_single_iff (value : String) :
    ofList? values = some (.single value) ↔ values = [value] := by
  match values with
  | [] => simp [ofList?]
  | [_] => simp [ofList?]
  | _ :: _ :: _ => simp [ofList?]

theorem ofList?_eq_multiple_iff (several : List String) :
    ofList? values = some (.multiple several) ↔ values = several ∧ 2 ≤ several.length := by
  match values with
  | [] =>
    simp only [ofList?, reduceCtorEq, false_iff, not_and]
    rintro rfl
    decide
  | [value] =>
    simp only [ofList?, Option.some.injEq, reduceCtorEq, false_iff, not_and]
    rintro rfl
    exact Nat.not_succ_le_self 1
  | first :: second :: later =>
    simp only [ofList?, Option.some.injEq, Occurrences.multiple.injEq]
    constructor
    · rintro rfl
      exact ⟨rfl, Nat.le_add_left 2 later.length⟩
    · exact And.left

variable {values}

theorem toList_of_ofList? {found : Occurrences} (standsThere : ofList? values = some found) :
    found.toList = values := by
  cases found with
  | single value => rw [(ofList?_eq_single_iff values value).1 standsThere]; rfl
  | multiple several => rw [((ofList?_eq_multiple_iff values several).1 standsThere).1]; rfl

variable (values)

theorem head?_ofList? : (ofList? values).map Occurrences.head = values.head? := by
  match values with
  | [] => rfl
  | [_] => rfl
  | _ :: _ :: _ => rfl

end Occurrences

namespace Tags

theorem valuesUnder_eq_nil_iff (occurrences : List (String × String)) :
    (∀ name, valuesUnder occurrences name = []) ↔ occurrences = [] := by
  constructor
  · intro none
    rw [List.eq_nil_iff_forall_not_mem]
    intro pair among
    have noValue := none pair.1
    rw [valuesUnder, List.map_eq_nil_iff, List.filter_eq_nil_iff] at noValue
    exact noValue pair among (by simp)
  · rintro rfl name
    rfl

theorem exists_mem_values_of_mem_keys {occurrences : List (String × String)} {name : String}
    (among : name ∈ KeyMap.keys (Tags.ofList occurrences)) :
    ∃ value, value ∈ Tags.values (Tags.ofList occurrences) name := by
  obtain ⟨found, standsThere⟩ := (KeyMap.mem_keys_iff_exists _ name).1 among
  rw [← Tags.find?, find?_ofList] at standsThere
  have nonempty : valuesUnder occurrences name ≠ [] := by
    intro empty
    rw [empty] at standsThere
    cases standsThere
  rw [values_ofList, ← valuesUnder]
  exact List.exists_mem_of_ne_nil _ nonempty

theorem ofList_eq_iff (occurrences other : List (String × String)) :
    Tags.ofList occurrences = Tags.ofList other ↔
      ∀ name, valuesUnder occurrences name = valuesUnder other name := by
  constructor
  · intro same name
    rw [valuesUnder, valuesUnder, ← values_ofList, ← values_ofList, same]
  · intro same
    apply KeyMap.ext_of_ascending (ascending_ofList occurrences) (ascending_ofList other)
    intro name
    have found := find?_ofList occurrences name
    rw [same name, ← find?_ofList other name] at found
    exact found

/-- Under every name stand the values that were added under it: nothing if there are none, one
alone, or a list of two or more.  The map is empty only if nothing was added, and two maps are
equal exactly if the same values were added under every name, however the names took turns. -/
theorem ofList_keeps_occurrences (occurrences : List (String × String)) :
    (∀ name,
      Tags.values (Tags.ofList occurrences) name = valuesUnder occurrences name ∧
      (Tags.find? (Tags.ofList occurrences) name = none ↔ valuesUnder occurrences name = []) ∧
      (∀ value, Tags.find? (Tags.ofList occurrences) name = some (.single value) ↔
        valuesUnder occurrences name = [value]) ∧
      (∀ several, Tags.find? (Tags.ofList occurrences) name = some (.multiple several) ↔
        valuesUnder occurrences name = several ∧ 2 ≤ several.length) ∧
      (∀ found ∈ Tags.find? (Tags.ofList occurrences) name,
        found.toList = valuesUnder occurrences name) ∧
      Tags.first? (Tags.ofList occurrences) name = (valuesUnder occurrences name).head? ∧
      (Tags.contains (Tags.ofList occurrences) name = true ↔ valuesUnder occurrences name ≠ [])) ∧
    ((Tags.ofList occurrences).isEmpty = true ↔ occurrences = []) ∧
    ∀ other, Tags.ofList occurrences = Tags.ofList other ↔
      ∀ name, valuesUnder occurrences name = valuesUnder other name := by
  refine ⟨fun name => ?_, ?_, ofList_eq_iff occurrences⟩
  · have found := find?_ofList occurrences name
    refine ⟨values_ofList occurrences name, ?_, ?_, ?_, ?_, ?_, ?_⟩
    · rw [found, Occurrences.ofList?_eq_none_iff]
    · intro value
      rw [found, Occurrences.ofList?_eq_single_iff]
    · intro several
      rw [found, Occurrences.ofList?_eq_multiple_iff]
    · intro occurrence standsThere
      exact Occurrences.toList_of_ofList? (found.symm.trans standsThere)
    · rw [Tags.first?, found, Occurrences.head?_ofList?]
    · rw [Tags.contains, KeyMap.contains, ← Tags.find?, found, Option.isSome_iff_ne_none, ne_eq,
        Occurrences.ofList?_eq_none_iff]
  · rw [List.isEmpty_iff]
    have empty := ofList_eq_iff occurrences []
    rw [← valuesUnder_eq_nil_iff]
    exact empty

example :
    Tags.ofList [("errors", "400"), ("path", "/quay"), ("errors", "404"), ("errors", "400")] =
      [("errors", .multiple ["400", "404", "400"]), ("path", .single "/quay")] := by
  decide

end Tags

/-! ## The number of occurrences -/

namespace KeyMap
variable {α : Type}

/-- An insertion adds what its value lists, and takes away what an earlier one listed. -/
theorem length_flatMap_insert {β : Type} (listed : α → List β) {map : KeyMap α}
    (ascending : Ascending map) (key : String) (value : α) :
    ((KeyMap.insert map key value).flatMap (listed ·.2)).length +
        ((KeyMap.get? map key).elim [] listed).length =
      (map.flatMap (listed ·.2)).length + (listed value).length := by
  induction map with
  | nil => simp [KeyMap.insert]
  | cons pair rest ih =>
    obtain ⟨other, kept⟩ := pair
    have ordered := ascending
    simp only [Ascending, KeyMap.keys, List.map_cons, List.pairwise_cons] at ordered
    rw [KeyMap.insert]
    by_cases same : key = other
    · subst same
      rw [if_pos rfl, KeyMap.get?, if_pos rfl]
      simp only [List.flatMap_cons, List.length_append, Option.elim_some]
      omega
    · rw [if_neg same]
      by_cases before : key < other
      · have absent : KeyMap.get? ((other, kept) :: rest) key = none :=
          (get?_eq_none_iff _ key).2 fun among => not_lt_head ascending among before
        rw [if_pos before, absent]
        simp only [List.flatMap_cons, List.length_append, Option.elim_none, List.length_nil]
        omega
      · rw [if_neg before, KeyMap.get?, if_neg same]
        have behind := ih ordered.2
        simp only [List.flatMap_cons, List.length_append]
        omega

end KeyMap

namespace Tags

def occurrenceCount (tags : Tags) : Nat := (tags.flatMap (·.2.toList)).length

theorem occurrenceCount_add {tags : Tags} (ascending : KeyMap.Ascending tags) (name value : String) :
    occurrenceCount (Tags.add tags name value) = occurrenceCount tags + 1 := by
  have inserted := KeyMap.length_flatMap_insert Occurrences.toList ascending name
  rw [Tags.add]
  cases found : KeyMap.get? tags name with
  | none =>
    have grown := inserted (.single value)
    rw [found] at grown
    exact grown
  | some earlier =>
    have grown := inserted (earlier.append value)
    rw [found, Option.elim_some, Occurrences.toList_append, List.length_append,
      List.length_singleton] at grown
    simp only [occurrenceCount]
    omega

theorem occurrenceCount_ofList (occurrences : List (String × String)) :
    occurrenceCount (Tags.ofList occurrences) = occurrences.length := by
  induction occurrences using List.reverseRecOn with
  | nil => rfl
  | append_singleton occurrences pair ih =>
    rw [ofList_append_singleton, occurrenceCount_add (ascending_ofList occurrences), ih,
      List.length_append, List.length_singleton]

end Tags
end AnnotatedApi
