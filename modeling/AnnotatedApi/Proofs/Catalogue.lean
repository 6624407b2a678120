import AnnotatedApi.Class.Catalogue
import Mathlib.Data.List.Basic
import Mathlib.Data.List.Nodup

/-!
# Catalogues of given classes

A list of classes is accepted exactly if no two have one name; the catalogue then
holds them in their order, their procedures' declaring classes filled in.  A look-up
through the index finds what a search of the classes would find.
-/

set_option autoImplicit false

namespace AnnotatedApi

@[simp] theorem AnnotatedClass.name_completed (cls : AnnotatedClass) :
    cls.completed.name = cls.name := rfl

namespace Catalogue

def names (catalogue : Catalogue) : List String := catalogue.classes.map (·.name)

/-! ## The index and the classes -/

theorem get?_index_eq_some_iff (catalogue : Catalogue) (name : String) (position : Nat) :
    KeyMap.get? catalogue.index name = some position ↔
      catalogue.names[position]? = some name := by
  rw [names, List.getElem?_map]
  exact catalogue.indexes name position

theorem contains_index_iff (catalogue : Catalogue) (name : String) :
    KeyMap.contains catalogue.index name = true ↔ name ∈ catalogue.names := by
  rw [KeyMap.contains, Option.isSome_iff_exists, List.mem_iff_getElem?]
  exact exists_congr (catalogue.get?_index_eq_some_iff name)

theorem nodup_names (catalogue : Catalogue) : catalogue.names.Nodup := by
  rw [List.nodup_iff_getElem?_ne_getElem?]
  intro i j before inside same
  have named : catalogue.names[j]? = some catalogue.names[j] := List.getElem?_eq_getElem inside
  have first := (catalogue.get?_index_eq_some_iff _ i).2 (same.trans named)
  have second := (catalogue.get?_index_eq_some_iff _ j).2 named
  rw [first, Option.some.injEq] at second
  omega

theorem find?_eq_some_iff_mem (catalogue : Catalogue) (name : String) (cls : AnnotatedClass) :
    catalogue.find? name = some cls ↔ cls ∈ catalogue.classes ∧ cls.name = name := by
  rw [find?, Option.bind_eq_some_iff]
  constructor
  · rintro ⟨position, found, there⟩
    have named := (catalogue.indexes name position).1 found
    rw [there, Option.map_some, Option.some.injEq] at named
    exact ⟨List.mem_of_getElem? there, named⟩
  · rintro ⟨among, rfl⟩
    obtain ⟨position, there⟩ := List.mem_iff_getElem?.1 among
    refine ⟨position, (catalogue.indexes _ _).2 ?_, there⟩
    rw [there, Option.map_some]

theorem find?_eq_search (catalogue : Catalogue) (name : String) :
    catalogue.find? name = catalogue.classes.find? fun cls => cls.name == name := by
  cases searched : catalogue.classes.find? fun cls => cls.name == name with
  | some cls =>
    have named : cls.name = name := by simpa using List.find?_some searched
    exact (catalogue.find?_eq_some_iff_mem name cls).2 ⟨List.mem_of_find?_eq_some searched, named⟩
  | none =>
    rw [Option.eq_none_iff_forall_not_mem]
    intro cls found
    obtain ⟨among, named⟩ := (catalogue.find?_eq_some_iff_mem name cls).1 found
    have different := List.find?_eq_none.1 searched cls among
    simp [named] at different

/-- The classes and their order are all that there is in a catalogue. -/
theorem eq_iff_classes_eq (catalogue other : Catalogue) :
    catalogue = other ↔ catalogue.classes = other.classes := by
  constructor
  · intro same
    rw [same]
  · intro same
    have sameIndex : catalogue.index = other.index := by
      refine KeyMap.ext_of_ascending catalogue.ascending other.ascending fun name => ?_
      apply Option.ext
      intro position
      rw [catalogue.get?_index_eq_some_iff, other.get?_index_eq_some_iff, names, names, same]
    cases catalogue
    cases other
    cases same
    cases sameIndex
    rfl

/-! ## Adding classes -/

theorem add_of_mem {catalogue : Catalogue} {cls : AnnotatedClass}
    (taken : cls.name ∈ catalogue.names) : catalogue.add cls = .error ⟨cls.name⟩ := by
  rw [add, dif_pos ((contains_index_iff catalogue cls.name).2 taken)]

theorem exists_add_of_not_mem {catalogue : Catalogue} {cls : AnnotatedClass}
    (free : cls.name ∉ catalogue.names) :
    ∃ larger, catalogue.add cls = .ok larger ∧
      larger.classes = catalogue.classes ++ [cls.completed] := by
  refine ⟨_, dif_neg ?_, rfl⟩
  intro found
  exact free ((contains_index_iff catalogue cls.name).1 found)

/-- Classes are added up to the first one whose name is taken by then. -/
theorem addAll_cases (catalogue : Catalogue) (classes : List AnnotatedClass) :
    ∃ larger added, larger.classes = catalogue.classes ++ added.map (·.completed) ∧
      (classes = added ∧ catalogue.addAll classes = (larger, none) ∨
        ∃ cls rest, classes = added ++ cls :: rest ∧ cls.name ∈ larger.names ∧
          catalogue.addAll classes = (larger, some ⟨cls.name⟩)) := by
  induction classes generalizing catalogue with
  | nil => exact ⟨catalogue, [], by simp, Or.inl ⟨rfl, rfl⟩⟩
  | cons cls rest ih =>
    by_cases taken : cls.name ∈ catalogue.names
    · refine ⟨catalogue, [], by simp, Or.inr ⟨cls, rest, rfl, taken, ?_⟩⟩
      rw [addAll, add_of_mem taken]
    · obtain ⟨next, isNext, appended⟩ := exists_add_of_not_mem taken
      obtain ⟨larger, added, grown, outcome⟩ := ih next
      refine ⟨larger, cls :: added, by simp [grown, appended], ?_⟩
      rw [addAll, isNext]
      rcases outcome with ⟨rfl, all⟩ | ⟨clashing, later, rfl, isTaken, stopped⟩
      · exact Or.inl ⟨rfl, all⟩
      · exact Or.inr ⟨clashing, later, rfl, isTaken, stopped⟩

theorem names_of_grown {catalogue larger : Catalogue} {added : List AnnotatedClass}
    (grown : larger.classes = catalogue.classes ++ added.map (·.completed)) :
    larger.names = catalogue.names ++ added.map (·.name) := by
  rw [names, grown, List.map_append, List.map_map, names]
  rfl

/-- All of the classes are added exactly if their names are new and distinct. -/
theorem addAll_snd_eq_none_iff (catalogue : Catalogue) (classes : List AnnotatedClass) :
    (catalogue.addAll classes).2 = none ↔
      (classes.map (·.name)).Nodup ∧ ∀ cls ∈ classes, cls.name ∉ catalogue.names := by
  obtain ⟨larger, added, grown, outcome⟩ := catalogue.addAll_cases classes
  have distinct := larger.nodup_names
  rw [names_of_grown grown, List.nodup_append] at distinct
  rcases outcome with ⟨rfl, all⟩ | ⟨cls, rest, rfl, taken, stopped⟩
  · refine iff_of_true (by rw [all]) ⟨distinct.2.1, ?_⟩
    intro cls among isTaken
    exact distinct.2.2 _ isTaken _ (List.mem_map_of_mem among) rfl
  · refine iff_of_false (by rw [stopped]; exact Option.some_ne_none _) ?_
    rintro ⟨apart, free⟩
    rw [List.map_append, List.map_cons, List.nodup_append] at apart
    rw [names_of_grown grown, List.mem_append] at taken
    rcases taken with earlier | given
    · exact free cls (by simp) earlier
    · exact apart.2.2 _ given _ List.mem_cons_self rfl

theorem classes_addAll {catalogue : Catalogue} {classes : List AnnotatedClass}
    (all : (catalogue.addAll classes).2 = none) :
    (catalogue.addAll classes).1.classes = catalogue.classes ++ classes.map (·.completed) := by
  obtain ⟨larger, added, grown, ⟨rfl, whole⟩ | ⟨cls, rest, -, -, stopped⟩⟩ :=
    catalogue.addAll_cases classes
  · rw [whole]
    exact grown
  · rw [stopped] at all
    cases all

theorem addAll_eq_none_iff (catalogue larger : Catalogue) (classes : List AnnotatedClass) :
    catalogue.addAll classes = (larger, none) ↔
      (classes.map (·.name)).Nodup ∧ (∀ cls ∈ classes, cls.name ∉ catalogue.names) ∧
        larger.classes = catalogue.classes ++ classes.map (·.completed) := by
  rw [Prod.ext_iff, and_comm, addAll_snd_eq_none_iff, and_assoc]
  refine and_congr_right fun distinct => and_congr_right fun free => ?_
  rw [eq_iff_classes_eq, classes_addAll ((addAll_snd_eq_none_iff _ _).2 ⟨distinct, free⟩)]
  exact eq_comm

theorem addAll_append (catalogue : Catalogue) (front back : List AnnotatedClass) :
    catalogue.addAll (front ++ back) =
      match catalogue.addAll front with
      | (larger, none) => larger.addAll back
      | (larger, some clash) => (larger, some clash) := by
  induction front generalizing catalogue with
  | nil => rfl
  | cons cls rest ih =>
    rw [List.cons_append, addAll, addAll]
    cases catalogue.add cls with
    | error clash => rfl
    | ok larger => exact ih larger

theorem ofClasses_eq_ok_iff (classes : List AnnotatedClass) (catalogue : Catalogue) :
    ofClasses classes = .ok catalogue ↔
      (classes.map (·.name)).Nodup ∧ catalogue.classes = classes.map (·.completed) := by
  have added := addAll_eq_none_iff empty catalogue classes
  simp only [empty, names, List.map_nil, List.not_mem_nil, not_false_eq_true, implies_true,
    true_and, List.nil_append] at added
  rw [← added, ofClasses, empty]
  generalize addAll _ classes = outcome
  obtain ⟨larger, clash⟩ := outcome
  cases clash <;> simp

theorem exists_ofClasses_iff (classes : List AnnotatedClass) :
    (∃ catalogue, ofClasses classes = .ok catalogue) ↔ (classes.map (·.name)).Nodup := by
  constructor
  · rintro ⟨catalogue, accepted⟩
    exact ((ofClasses_eq_ok_iff classes catalogue).1 accepted).1
  · intro distinct
    have all := (addAll_snd_eq_none_iff empty classes).2 ⟨distinct, fun _ _ => List.not_mem_nil⟩
    exact ⟨_, (ofClasses_eq_ok_iff classes _).2 ⟨distinct, classes_addAll all⟩⟩

/-! ## Looking up given classes -/

theorem find?_eq_some_iff {classes : List AnnotatedClass} {catalogue : Catalogue}
    (accepted : ofClasses classes = .ok catalogue) (name : String) (cls : AnnotatedClass) :
    catalogue.find? name = some cls ↔
      ∃ given ∈ classes, given.name = name ∧ cls = given.completed := by
  obtain ⟨-, whole⟩ := (ofClasses_eq_ok_iff classes catalogue).1 accepted
  rw [find?_eq_some_iff_mem, whole, List.mem_map]
  constructor
  · rintro ⟨⟨given, among, rfl⟩, named⟩
    exact ⟨given, among, named, rfl⟩
  · rintro ⟨given, among, named, rfl⟩
    exact ⟨⟨given, among, rfl⟩, named⟩

end Catalogue
end AnnotatedApi
