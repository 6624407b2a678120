import AnnotatedApi.Proofs.Catalogue
import AnnotatedApi.Proofs.Outcome

/-!
# Merging catalogues

The first class whose name is taken decides what a merge does.  `MergeRun` are any
number of merges one after the other, also after some that failed; what one merge
keeps, all of them keep.
-/

set_option autoImplicit false

namespace AnnotatedApi

/-! ## Given classes and stored classes -/

structure Procedure.StoredIn (owner : String) (given stored : Procedure) : Prop where
  kept : given.declaringClass ≠ "" → stored = given
  filled : given.declaringClass = "" → stored = { given with declaringClass := owner }

/-- How a given class is stored: all but the declaring classes that were not given is kept. -/
structure AnnotatedClass.StoredAs (given stored : AnnotatedClass) : Prop where
  name : stored.name = given.name
  comment : stored.comment = given.comment
  model : stored.model = given.model
  fields : stored.fields = given.fields
  procedures :
    List.Forall₂ (Procedure.StoredIn given.name) given.procedures stored.procedures

theorem Procedure.storedIn_declaredIn (owner : String) (given : Procedure) :
    StoredIn owner given (given.declaredIn owner) := by
  constructor
  · intro said
    simp [declaredIn, said]
  · intro unsaid
    simp [declaredIn, unsaid]

theorem Procedure.StoredIn.declared {owner : String} {given stored : Procedure}
    (storedIn : StoredIn owner given stored) (named : owner ≠ "") :
    stored.declaringClass ≠ "" := by
  by_cases unsaid : given.declaringClass = ""
  · rw [storedIn.filled unsaid]
    exact named
  · rw [storedIn.kept unsaid]
    exact unsaid

theorem Procedure.declaredIn_declaredIn (owner : String) (given : Procedure) :
    (given.declaredIn owner).declaredIn owner = given.declaredIn owner := by
  by_cases unsaid : given.declaringClass = ""
  · by_cases nameless : owner = "" <;> simp [declaredIn, unsaid, nameless]
  · simp [declaredIn, unsaid]

namespace AnnotatedClass

theorem completed_completed (given : AnnotatedClass) :
    given.completed.completed = given.completed := by
  simp only [completed, List.map_map]
  congr 1
  exact List.map_congr_left fun procedure _ => procedure.declaredIn_declaredIn given.name

theorem storedAs_completed (given : AnnotatedClass) : given.StoredAs given.completed where
  name := rfl
  comment := rfl
  model := rfl
  fields := rfl
  procedures := by
    rw [completed, List.forall₂_map_right_iff, List.forall₂_same]
    intro procedure _
    exact procedure.storedIn_declaredIn given.name

theorem declared_of_mem_completed {given : AnnotatedClass} (named : given.name ≠ "")
    {procedure : Procedure} (among : procedure ∈ given.completed.procedures) :
    procedure.declaringClass ≠ "" := by
  obtain ⟨original, -, rfl⟩ := List.mem_map.1 among
  exact (original.storedIn_declaredIn given.name).declared named

end AnnotatedClass

namespace Catalogue

/-! ## One merge -/

theorem merge_of_free {catalogue part : Catalogue}
    (free : ∀ cls ∈ part.classes, cls.name ∉ catalogue.names) :
    (catalogue.merge part).2 = none ∧
      (catalogue.merge part).1.classes = catalogue.classes ++ part.classes.map (·.completed) := by
  have all := (addAll_snd_eq_none_iff catalogue part.classes).2 ⟨part.nodup_names, free⟩
  exact ⟨all, classes_addAll all⟩

/-- Merging stops at the first class whose name is in the catalogue. -/
theorem merge_of_taken {catalogue part : Catalogue} {front back : List AnnotatedClass}
    {cls : AnnotatedClass} (split : part.classes = front ++ cls :: back)
    (free : ∀ earlier ∈ front, earlier.name ∉ catalogue.names)
    (taken : cls.name ∈ catalogue.names) :
    (catalogue.merge part).2 = some ⟨cls.name⟩ ∧
      (catalogue.merge part).1.classes = catalogue.classes ++ front.map (·.completed) := by
  have distinct := part.nodup_names
  rw [names, split, List.map_append] at distinct
  have all := (addAll_snd_eq_none_iff catalogue front).2 ⟨(List.nodup_append.1 distinct).1, free⟩
  have grown := classes_addAll all
  rw [merge, split, addAll_append]
  generalize catalogue.addAll front = outcome at all grown ⊢
  obtain ⟨larger, clash⟩ := outcome
  obtain rfl : clash = none := all
  have stillTaken : cls.name ∈ larger.names := by
    rw [names_of_grown grown]
    exact List.mem_append_left _ taken
  dsimp only
  rw [addAll, add_of_mem stillTaken]
  exact ⟨rfl, grown⟩

/-- A merge adds all classes, or those before the first whose name is in the catalogue. -/
theorem merge_cases (catalogue part : Catalogue) :
    ((∀ cls ∈ part.classes, cls.name ∉ catalogue.names) ∧ (catalogue.merge part).2 = none ∧
        (catalogue.merge part).1.classes = catalogue.classes ++ part.classes.map (·.completed)) ∨
      ∃ front cls back, part.classes = front ++ cls :: back ∧
        (∀ earlier ∈ front, earlier.name ∉ catalogue.names) ∧ cls.name ∈ catalogue.names ∧
        (catalogue.merge part).2 = some ⟨cls.name⟩ ∧
        (catalogue.merge part).1.classes = catalogue.classes ++ front.map (·.completed) := by
  by_cases free : ∀ cls ∈ part.classes, cls.name ∉ catalogue.names
  · exact Or.inl ⟨free, merge_of_free free⟩
  · have taken : ∃ cls ∈ part.classes, ¬ cls.name ∉ catalogue.names := by
      simpa only [not_forall, exists_prop] using free
    obtain ⟨cls, front, back, split, earlier, clashing⟩ := exists_firstFailure taken
    have isTaken := not_not.1 clashing
    exact Or.inr ⟨front, cls, back, split, earlier, isTaken, merge_of_taken split earlier isTaken⟩

theorem exists_classes_merge (catalogue part : Catalogue) :
    ∃ added, added ⊆ part.classes ∧
      (catalogue.merge part).1.classes = catalogue.classes ++ added.map (·.completed) := by
  rcases catalogue.merge_cases part with ⟨-, -, grown⟩ | ⟨front, cls, back, split, -, -, -, grown⟩
  · exact ⟨part.classes, List.Subset.refl _, grown⟩
  · refine ⟨front, ?_, grown⟩
    rw [split]
    exact List.subset_append_left front _

theorem find?_of_prefix {catalogue larger : Catalogue}
    (grown : catalogue.classes <+: larger.classes) {name : String} {cls : AnnotatedClass}
    (found : catalogue.find? name = some cls) : larger.find? name = some cls := by
  obtain ⟨among, named⟩ := (catalogue.find?_eq_some_iff_mem name cls).1 found
  exact (larger.find?_eq_some_iff_mem name cls).2 ⟨grown.subset among, named⟩

/-- A merge fails if a name is taken; the error names the first such class, and exactly the
classes in front of it are appended. -/
structure MergesUpToClash (catalogue part : Catalogue) : Prop where
  fails_iff : (catalogue.merge part).2 ≠ none ↔ ∃ cls ∈ part.classes, cls.name ∈ catalogue.names
  whole : (catalogue.merge part).2 = none →
    (catalogue.merge part).1.classes = catalogue.classes ++ part.classes
  clash : ∀ clash, (catalogue.merge part).2 = some clash →
    ∃ front cls back, part.classes = front ++ cls :: back ∧
      (∀ earlier ∈ front, earlier.name ∉ catalogue.names) ∧ cls.name ∈ catalogue.names ∧
      clash.message = "duplicate class in manifest: " ++ cls.name ∧
      (catalogue.merge part).1.classes = catalogue.classes ++ front

/-! ## Merges one after the other -/

/-- `MergeRun start given reached`: merging catalogues of given classes leads from `start` to
`reached`.  A merge that fails leaves what it added, and the next one goes on from there. -/
inductive MergeRun (start : Catalogue) : List AnnotatedClass → Catalogue → Prop
  | refl : MergeRun start [] start
  | merge {given classes : List AnnotatedClass} {reached part : Catalogue}
      (run : MergeRun start given reached) (built : ofClasses classes = .ok part) :
      MergeRun start (given ++ classes) (reached.merge part).1

section Built
variable {classes : List AnnotatedClass} {part : Catalogue}

theorem exists_given_of_built (built : ofClasses classes = .ok part) {stored : AnnotatedClass}
    (among : stored ∈ part.classes) : ∃ cls ∈ classes, stored = cls.completed := by
  rw [((ofClasses_eq_ok_iff classes part).1 built).2] at among
  obtain ⟨cls, isGiven, same⟩ := List.mem_map.1 among
  exact ⟨cls, isGiven, same.symm⟩

/-- Classes of a catalogue are merged as they are. -/
theorem map_completed_of_built (built : ofClasses classes = .ok part)
    {added : List AnnotatedClass} (isPart : added ⊆ part.classes) :
    added.map (·.completed) = added := by
  have unchanged : ∀ stored ∈ added, stored.completed = stored := by
    intro stored among
    obtain ⟨cls, -, rfl⟩ := exists_given_of_built built (isPart among)
    exact cls.completed_completed
  exact (List.map_congr_left unchanged).trans (List.map_id' added)

theorem mergesUpToClash_of_built (built : ofClasses classes = .ok part) (catalogue : Catalogue) :
    MergesUpToClash catalogue part := by
  rcases catalogue.merge_cases part with
    ⟨free, merged, grown⟩ | ⟨front, cls, back, split, free, taken, stopped, grown⟩
  · rw [map_completed_of_built built (List.Subset.refl _)] at grown
    refine ⟨iff_of_false (not_not.2 merged) ?_, fun _ => grown, ?_⟩
    · rintro ⟨cls, among, taken⟩
      exact free cls among taken
    · intro clash stopped
      rw [merged] at stopped
      cases stopped
  · have among : cls ∈ part.classes := by
      rw [split]
      exact List.mem_append_right front List.mem_cons_self
    have isPart : front ⊆ part.classes := by
      rw [split]
      exact List.subset_append_left front _
    rw [map_completed_of_built built isPart] at grown
    refine ⟨iff_of_true ?_ ⟨cls, among, taken⟩, ?_, ?_⟩
    · rw [stopped]
      exact Option.some_ne_none _
    · intro merged
      rw [stopped] at merged
      cases merged
    · intro clash same
      rw [stopped, Option.some.injEq] at same
      rw [← same]
      exact ⟨front, cls, back, split, free, taken, rfl, grown⟩

end Built

theorem MergeRun.prefix_classes {start reached : Catalogue} {given : List AnnotatedClass}
    (run : MergeRun start given reached) : start.classes <+: reached.classes := by
  induction run with
  | refl => exact List.prefix_rfl
  | @merge given classes reached part run built ih =>
    obtain ⟨added, -, grown⟩ := exists_classes_merge reached part
    rw [grown]
    exact ih.trans (List.prefix_append _ _)

theorem MergeRun.exists_given {start reached : Catalogue} {given : List AnnotatedClass}
    (run : MergeRun start given reached) {stored : AnnotatedClass}
    (among : stored ∈ reached.classes) :
    stored ∈ start.classes ∨ ∃ cls ∈ given, stored = cls.completed := by
  induction run with
  | refl => exact Or.inl among
  | @merge given classes reached part run built ih =>
    obtain ⟨added, isPart, grown⟩ := exists_classes_merge reached part
    rw [grown, List.mem_append, List.mem_map] at among
    rcases among with earlier | ⟨original, isAdded, rfl⟩
    · rcases ih earlier with before | ⟨cls, isGiven, same⟩
      · exact Or.inl before
      · exact Or.inr ⟨cls, List.mem_append_left _ isGiven, same⟩
    -- A merged class is complete already, so completing it again leaves it as it was stored.
    · obtain ⟨cls, isGiven, rfl⟩ := exists_given_of_built built (isPart isAdded)
      exact Or.inr ⟨cls, List.mem_append_right _ isGiven, cls.completed_completed⟩

/-- What holds of a catalogue after any merges, and what the next ones do to it. -/
theorem mergeRun_keeps {given : List AnnotatedClass} {reached : Catalogue}
    (run : MergeRun empty given reached) :
    reached.names.Nodup ∧
      (∀ name position, KeyMap.get? reached.index name = some position ↔
        ∃ cls, reached.classes[position]? = some cls ∧ cls.name = name) ∧
      (∀ name cls, reached.find? name = some cls ↔ cls ∈ reached.classes ∧ cls.name = name) ∧
      (∀ stored ∈ reached.classes, ∃ cls ∈ given, cls.StoredAs stored ∧
        (cls.name ≠ "" → ∀ procedure ∈ stored.procedures, procedure.declaringClass ≠ "")) ∧
      (∀ later larger, MergeRun reached later larger →
        reached.classes <+: larger.classes ∧
          ∀ name cls, reached.find? name = some cls → larger.find? name = some cls) ∧
      ∀ classes part, ofClasses classes = .ok part → MergesUpToClash reached part := by
  refine ⟨reached.nodup_names, ?_, reached.find?_eq_some_iff_mem, ?_, ?_, ?_⟩
  · intro name position
    rw [reached.indexes, Option.map_eq_some_iff]
  · intro stored among
    rcases run.exists_given among with before | ⟨cls, isGiven, rfl⟩
    · cases before
    · exact ⟨cls, isGiven, cls.storedAs_completed, fun named _ isProcedure =>
        AnnotatedClass.declared_of_mem_completed named isProcedure⟩
  · intro later larger more
    exact ⟨more.prefix_classes, fun name cls found => find?_of_prefix more.prefix_classes found⟩
  · intro classes part built
    exact mergesUpToClash_of_built built reached

def heron : AnnotatedClass where
  name := "Heron"
  comment := "Herons"
  model := false
  procedures := [⟨"actionFish", "", [], ""⟩, ⟨"actionRest", "Bird", [], ""⟩]
  fields := []

def plainModel (name : String) : AnnotatedClass := ⟨name, "", true, [], []⟩

/-- A run whose second merge fails at its second class. -/
theorem mergeRun_keeps_marsh :
    ∃ reached part, MergeRun empty
        ([] ++ [heron, plainModel "Reed"] ++ [plainModel "Frog", plainModel "Reed", plainModel "Newt"])
        reached ∧
      reached.names = ["Heron", "Reed", "Frog"] ∧
      (reached.find? "Newt").isNone ∧
      ofClasses [plainModel "Newt", heron] = .ok part ∧
      (reached.merge part).2 = some ⟨"Heron"⟩ ∧
      (∀ name cls, reached.find? name = some cls ↔ cls ∈ reached.classes ∧ cls.name = name) ∧
      MergesUpToClash reached part := by
  have built : ∃ first second third, ofClasses [heron, plainModel "Reed"] = .ok first ∧
      ofClasses [plainModel "Frog", plainModel "Reed", plainModel "Newt"] = .ok second ∧
      ofClasses [plainModel "Newt", heron] = .ok third ∧
      ((empty.merge first).1.merge second).1.names = ["Heron", "Reed", "Frog"] ∧
      (((empty.merge first).1.merge second).1.find? "Newt").isNone ∧
      (((empty.merge first).1.merge second).1.merge third).2 = some ⟨"Heron"⟩ :=
    ⟨_, _, _, rfl, rfl, rfl, rfl, rfl, rfl⟩
  obtain ⟨first, second, third, isFirst, isSecond, isThird, names, absent, clash⟩ := built
  have run : MergeRun empty _ _ := (MergeRun.refl.merge isFirst).merge isSecond
  obtain ⟨-, -, lookups, -, -, merges⟩ := mergeRun_keeps run
  exact ⟨_, third, run, names, absent, isThird, clash, lookups, merges _ third isThird⟩

end Catalogue
end AnnotatedApi
