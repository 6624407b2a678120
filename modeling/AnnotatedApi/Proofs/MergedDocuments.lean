import AnnotatedApi.Proofs.Stages

/-!
# Documents of merged catalogues

A compilation sees of a catalogue what look-ups find.  The order of merges changes the
positions of classes and no look-up; a further merge changes no look-up that found a class.
-/

set_option autoImplicit false

namespace AnnotatedApi

/-! ## Merging in any order -/

namespace Catalogue

def mergeAll (catalogue : Catalogue) : List Catalogue → Except DuplicateClass Catalogue
  | [] => .ok catalogue
  | part :: rest =>
    match catalogue.merge part with
    | (larger, none) => larger.mergeAll rest
    | (_, some clash) => .error clash

theorem mergeAll_eq_ok_iff (catalogue larger : Catalogue) (parts : List Catalogue) :
    catalogue.mergeAll parts = .ok larger ↔
      catalogue.addAll (parts.flatMap (·.classes)) = (larger, none) := by
  induction parts generalizing catalogue with
  | nil => simp [mergeAll, addAll]
  | cons part rest ih =>
    rw [mergeAll, List.flatMap_cons, addAll_append, merge]
    generalize catalogue.addAll part.classes = outcome
    obtain ⟨next, clash⟩ := outcome
    cases clash with
    | none => exact ih next
    | some clash => simp

/-- A run of the command line merges the manifests that it reads in this way. -/
theorem mergeFiles_eq_mergeAll {tree : FileTree} {paths : List String} {parts : List Catalogue}
    (all : List.Forall₂ (CommandLine.Lists tree) paths parts) (catalogue : Catalogue) :
    CommandLine.mergeFiles tree.files catalogue paths =
      pure ((catalogue.mergeAll parts).mapError .duplicate) := by
  induction all generalizing catalogue with
  | nil => rfl
  | @cons path part paths parts listed _ ih =>
    rw [CommandLine.mergeFiles_of_lists listed, mergeAll]
    generalize catalogue.merge part = outcome
    obtain ⟨next, clash⟩ := outcome
    cases clash with
    | none => exact ih next
    | some clash => rfl

variable {parts parts' : List Catalogue}

theorem exists_mergeAll_empty_iff (parts : List Catalogue) :
    (∃ merged, empty.mergeAll parts = .ok merged) ↔
      ((parts.flatMap (·.classes)).map (·.name)).Nodup := by
  simp only [mergeAll_eq_ok_iff]
  constructor
  · rintro ⟨merged, added⟩
    exact ((addAll_eq_none_iff _ _ _).1 added).1
  · intro distinct
    have all := (addAll_snd_eq_none_iff empty _).2 ⟨distinct, fun _ _ => List.not_mem_nil⟩
    exact ⟨_, Prod.ext rfl all⟩

theorem classes_of_mergeAll_empty {merged : Catalogue} (all : empty.mergeAll parts = .ok merged) :
    merged.classes = (parts.flatMap (·.classes)).map (·.completed) :=
  ((addAll_eq_none_iff _ _ _).1 ((mergeAll_eq_ok_iff _ _ _).1 all)).2.2

theorem find?_eq_of_perm {catalogue other : Catalogue}
    (perm : catalogue.classes.Perm other.classes) (name : String) :
    catalogue.find? name = other.find? name := by
  apply Option.ext
  intro cls
  rw [find?_eq_some_iff_mem, find?_eq_some_iff_mem, perm.mem_iff]

/-- The order of merges decides neither on their success nor on what can be found and
compiled afterwards. -/
theorem mergeAll_of_perm (perm : parts.Perm parts') :
    ((∃ merged, empty.mergeAll parts = .ok merged) ↔
        ∃ merged, empty.mergeAll parts' = .ok merged) ∧
      ∀ merged merged', empty.mergeAll parts = .ok merged → empty.mergeAll parts' = .ok merged' →
        merged.size = merged'.size ∧ (∀ name, merged.find? name = merged'.find? name) ∧
          ∀ settings, Document.compile merged.find? settings =
            Document.compile merged'.find? settings := by
  -- The given classes are the same up to their order, and so are the stored ones.
  have given := perm.flatMap_right (·.classes)
  constructor
  · rw [exists_mergeAll_empty_iff, exists_mergeAll_empty_iff]
    exact (given.map (·.name)).nodup_iff
  · intro merged merged' all all'
    have classes : merged.classes.Perm merged'.classes := by
      rw [classes_of_mergeAll_empty all, classes_of_mergeAll_empty all']
      exact given.map (·.completed)
    have lookups := find?_eq_of_perm classes
    refine ⟨classes.length_eq, lookups, ?_⟩
    intro settings
    rw [funext lookups]

def harbour : AnnotatedClass where
  name := "Harbour"
  comment := "Boats\n@definition Boat"
  model := false
  procedures := [⟨"actionList", "", [], "@path /boats\n@method get\n@return Boat[]"⟩]
  fields := []

def harbourSettings : Settings := { controller := "Harbour" }

theorem mergeAll_of_perm_harbour :
    ∃ first second third merged merged' document,
      ofClasses [harbour] = .ok first ∧ ofClasses [plainModel "Buoy"] = .ok second ∧
      ofClasses [plainModel "Boat", heron] = .ok third ∧
      [first, second, third].Perm [third, first, second] ∧
      empty.mergeAll [first, second, third] = .ok merged ∧
      empty.mergeAll [third, first, second] = .ok merged' ∧
      merged.names = ["Harbour", "Buoy", "Boat", "Heron"] ∧
      merged'.names = ["Boat", "Heron", "Harbour", "Buoy"] ∧
      Document.compile merged.find? harbourSettings = .ok document ∧
      Document.compile merged'.find? harbourSettings = .ok document ∧
      ∀ name, merged.find? name = merged'.find? name := by
  have merging : ∃ first second third merged merged' document,
      ofClasses [harbour] = .ok first ∧ ofClasses [plainModel "Buoy"] = .ok second ∧
      ofClasses [plainModel "Boat", heron] = .ok third ∧
      empty.mergeAll [first, second, third] = .ok merged ∧
      empty.mergeAll [third, first, second] = .ok merged' ∧
      merged.names = ["Harbour", "Buoy", "Boat", "Heron"] ∧
      merged'.names = ["Boat", "Heron", "Harbour", "Buoy"] ∧
      Document.compile merged.find? harbourSettings = .ok document :=
    ⟨_, _, _, _, _, _, rfl, rfl, rfl, rfl, rfl, rfl, rfl, rfl⟩
  obtain ⟨first, second, third, merged, merged', document, isFirst, isSecond, isThird, all, all',
    names, names', compiled⟩ := merging
  have perm : [first, second, third].Perm [third, first, second] :=
    List.perm_append_singleton third [first, second]
  obtain ⟨-, lookups, documents⟩ := (mergeAll_of_perm perm).2 merged merged' all all'
  have compiled' := (documents harbourSettings).symm.trans compiled
  exact ⟨first, second, third, merged, merged', document, isFirst, isSecond, isThird, perm, all,
    all', names, names', compiled, compiled', lookups⟩

end Catalogue

/-! ## Merging more -/

def FindsAll (classes classes' : String → Option AnnotatedClass) : Prop :=
  ∀ name cls, classes name = some cls → classes' name = some cls

namespace FindsAll
variable {classes classes' : String → Option AnnotatedClass}

theorem modelClass_eq_ok (all : FindsAll classes classes') {modelsNamespace name : String}
    {model : AnnotatedClass} (found : modelClass classes modelsNamespace name = .ok model) :
    modelClass classes' modelsNamespace name = .ok model := by
  rw [modelClass_eq_ok_iff] at found ⊢
  exact ⟨all _ _ found.1, found.2⟩

theorem namedDefinitions_eq_ok (all : FindsAll classes classes') {modelsNamespace : String}
    {known : KnownModels} {names : List String} {definitions : List (String × Schema)}
    (defined : namedDefinitions classes modelsNamespace known names = .ok definitions) :
    namedDefinitions classes' modelsNamespace known names = .ok definitions := by
  rw [namedDefinitions_eq_ok_iff] at defined ⊢
  refine defined.imp ?_
  rintro name _ ⟨model, found, rfl⟩
  exact ⟨model, all.modelClass_eq_ok found, rfl⟩

theorem stages (all : FindsAll classes classes') {settings : Settings}
    {controller : AnnotatedClass} {known : KnownModels} {definitions : List (String × Schema)}
    {placed : List PlacedOperation} {document : Document}
    (stages : Document.Stages classes settings controller known definitions placed document) :
    Document.Stages classes' settings controller known definitions placed document where
  found := all _ _ stages.found
  registered := stages.registered
  defined := all.namedDefinitions_eq_ok stages.defined
  -- The operations are made of the controller alone, without a look-up.
  operated := stages.operated
  assembled := stages.assembled

theorem compile_eq_ok (all : FindsAll classes classes') {settings : Settings}
    {document : Document} (compiled : Document.compile classes settings = .ok document) :
    Document.compile classes' settings = .ok document := by
  obtain ⟨controller, known, definitions, placed, stages⟩ :=
    (Document.compile_eq_ok_iff _ _ _).1 compiled
  exact (Document.compile_eq_ok_iff _ _ _).2
    ⟨controller, known, definitions, placed, all.stages stages⟩

end FindsAll

namespace Catalogue

theorem findsAll_merge (catalogue part : Catalogue) :
    FindsAll catalogue.find? (catalogue.merge part).1.find? := by
  intro name cls found
  obtain ⟨added, -, grown⟩ := exists_classes_merge catalogue part
  refine find?_of_prefix ?_ found
  rw [grown]
  exact List.prefix_append _ _

/-- A document stays as it is whatever is merged, also by a merge that fails half way. -/
theorem compile_merge {catalogue : Catalogue} {settings : Settings} {document : Document}
    (compiled : Document.compile catalogue.find? settings = .ok document) (part : Catalogue) :
    Document.compile (catalogue.merge part).1.find? settings = .ok document :=
  (catalogue.findsAll_merge part).compile_eq_ok compiled

theorem compile_merge_harbour :
    ∃ catalogue part larger document,
      ofClasses [harbour, plainModel "Boat"] = .ok catalogue ∧
      ofClasses [plainModel "Buoy", heron] = .ok part ∧
      Document.compile catalogue.find? harbourSettings = .ok document ∧
      catalogue.merge part = (larger, none) ∧ larger.size = 4 ∧
      Document.compile larger.find? harbourSettings = .ok document := by
  have merging : ∃ catalogue part larger document,
      ofClasses [harbour, plainModel "Boat"] = .ok catalogue ∧
      ofClasses [plainModel "Buoy", heron] = .ok part ∧
      Document.compile catalogue.find? harbourSettings = .ok document ∧
      catalogue.merge part = (larger, none) ∧ larger.size = 4 :=
    ⟨_, _, _, _, rfl, rfl, rfl, rfl, rfl⟩
  obtain ⟨catalogue, part, larger, document, isCatalogue, isPart, compiled, merged, size⟩ := merging
  have stays := compile_merge compiled part
  rw [merged] at stays
  exact ⟨catalogue, part, larger, document, isCatalogue, isPart, compiled, merged, size, stays⟩

end Catalogue
end AnnotatedApi
