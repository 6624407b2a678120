import AnnotatedApi.CommandLine.Run
import AnnotatedApi.Proofs.Places

/-!
# What delivering an output changes

Making directories changes a tree only where directories were missing, and only at
places that the output's path passes.  Writing the output changes one place more.
-/

set_option autoImplicit false

namespace AnnotatedApi

namespace FileTree

/-! ## One change -/

section Put
variable (tree : FileTree) {place : Place} (entry : Entry)

theorem entryAt_put (below : place ≠ []) (other : Place) :
    (tree.put place entry).entryAt other =
      if place = other then some entry else tree.entryAt other := by
  rw [entryAt, put, lookupEntry_putEntry, entryAt]
  cases other with
  | nil => simp [below]
  | cons name names => rfl

end Put

structure AddsDirectories (places : List Place) (earlier later : FileTree) : Prop where
  current : later.current = earlier.current
  entries : ∀ place, later.entryAt place = earlier.entryAt place ∨
    place ∈ places ∧ earlier.entryAt place = none ∧ later.entryAt place = some .directory

theorem AddsDirectories.refl (places : List Place) (tree : FileTree) :
    AddsDirectories places tree tree where
  current := rfl
  entries := fun _ => Or.inl rfl

theorem AddsDirectories.trans {places : List Place} {first second third : FileTree}
    (one : AddsDirectories places first second) (two : AddsDirectories places second third) :
    AddsDirectories places first third where
  current := two.current.trans one.current
  entries := by
    intro place
    rcases two.entries place with kept | ⟨among, missing, made⟩
    · rw [kept]
      exact one.entries place
    · rcases one.entries place with kept | ⟨-, -, there⟩
      · exact Or.inr ⟨among, kept ▸ missing, made⟩
      · rw [there] at missing
        cases missing

theorem makeDirectory_adds {tree changed : FileTree} {path : String}
    (made : tree.makeDirectory path = .ok changed) :
    AddsDirectories [Path.destination tree.current path] tree changed := by
  rw [makeDirectory] at made
  cases placed : tree.place (withoutFinalSeparators path) with
  | error cause => simp [placed, bind, Except.bind] at made
  | ok place =>
    obtain ⟨-, -, rfl⟩ := (place_eq_ok_iff _ _ _).1 placed
    rw [Path.destination_withoutFinalSeparators] at placed
    generalize Path.destination tree.current path = place at placed ⊢
    simp only [placed, bind, Except.bind] at made
    cases missing : tree.entryAt place with
    | some entry => simp [missing] at made
    | none =>
      have below : place ≠ [] := by
        rintro rfl
        cases missing
      have changedIs : changed = tree.put place .directory := by
        rw [missing] at made
        dsimp only at made
        split at made
        · exact (Except.ok.inj made).symm
        · cases made
        · cases made
      subst changedIs
      refine ⟨rfl, fun other => ?_⟩
      rw [entryAt_put tree _ below]
      by_cases same : place = other
      · subst same
        exact Or.inr ⟨List.mem_singleton_self _, missing, if_pos rfl⟩
      · exact Or.inl (if_neg same)

/-! ## Making directories -/

/-- From a tree with this current directory the action adds directories among the places,
and does nothing else. -/
def OnlyAdds (current : Place) (places : List Place) {α : Type} (action : StateM FileTree α) :
    Prop :=
  ∀ tree, tree.current = current → AddsDirectories places tree (action.run tree).2

section Store
variable (tree : FileTree) (path : String)

theorem run_kind : (store.kind path).run tree = pure (tree.kind path, tree) := rfl

theorem run_makeDirectory :
    (store.makeDirectory path).run tree = applyChange (·.makeDirectory path) tree := rfl

theorem run_write (text : String) :
    (store.write path text).run tree = applyChange (·.write path text) tree := rfl

end Store

section Actions
variable {current : Place} {places : List Place} {α β : Type}

theorem OnlyAdds.pure (value : α) :
    OnlyAdds current places (Pure.pure value : StateM FileTree α) :=
  fun tree _ => AddsDirectories.refl places tree

theorem OnlyAdds.bind {action : StateM FileTree α} {next : α → StateM FileTree β}
    (first : OnlyAdds current places action)
    (second : ∀ value, OnlyAdds current places (next value)) :
    OnlyAdds current places (action >>= next) := by
  intro tree isCurrent
  have one := first tree isCurrent
  have two := second (action.run tree).1 (action.run tree).2 (one.current.trans isCurrent)
  exact one.trans two

theorem onlyAdds_kind (path : String) : OnlyAdds current places (store.kind path) :=
  fun tree _ => AddsDirectories.refl places tree

theorem onlyAdds_makeDirectory {path : String} (among : Path.destination current path ∈ places) :
    OnlyAdds current places (store.makeDirectory path) := by
  intro tree isCurrent
  rw [run_makeDirectory, applyChange]
  cases made : tree.makeDirectory path with
  | error cause => exact AddsDirectories.refl places tree
  | ok changed =>
    have adds := makeDirectory_adds made
    rw [isCurrent] at adds
    refine ⟨adds.current, fun place => ?_⟩
    rcases adds.entries place with kept | ⟨isPlace, change⟩
    · exact Or.inl kept
    · rw [List.mem_singleton.1 isPlace] at change ⊢
      exact Or.inr ⟨among, change⟩

end Actions

/-! ## Writing the file -/

/-- The later tree is the earlier one with a text in the file at a place; on the way
there, every directory that was missing has been made. -/
structure WritesFile (way : Place → Prop) (place : Place) (text : String)
    (earlier later : FileTree) : Prop where
  current : later.current = earlier.current
  written : later.entryAt place = some (.file (some text))
  replaced : earlier.entryAt place ≠ some .directory
  wasFree : ∀ stop, way stop →
    earlier.entryAt stop = none ∨ earlier.entryAt stop = some .directory
  leads : ∀ stop, way stop → later.entryAt stop = some .directory
  others : ∀ other, other ≠ place → ¬ way other → later.entryAt other = earlier.entryAt other

theorem write_eq_ok {tree changed : FileTree} {path text : String}
    (written : tree.write path text = .ok changed) :
    (∀ stop ∈ Path.stops tree.current path, tree.entryAt stop = some .directory) ∧
      tree.entryAt (Path.destination tree.current path) ≠ some .directory ∧
      changed = tree.put (Path.destination tree.current path) (.file (some text)) := by
  rw [write] at written
  cases placed : tree.place path with
  | error cause => simp [placed, bind, Except.bind] at written
  | ok place =>
    obtain ⟨-, leads, rfl⟩ := (place_eq_ok_iff _ _ _).1 placed
    refine ⟨leads, ?_⟩
    generalize Path.destination tree.current path = place at placed ⊢
    simp only [placed, bind, Except.bind] at written
    cases here : tree.entryAt place with
    | none =>
      rw [here] at written
      dsimp only at written
      split at written
      · exact ⟨by simp, (Except.ok.inj written).symm⟩
      · cases written
      · cases written
    | some entry =>
      cases entry with
      | directory => simp [here] at written
      | file earlier =>
        rw [here] at written
        exact ⟨by simp, (Except.ok.inj written).symm⟩

theorem AddsDirectories.writesFile {tree made changed : FileTree} {path text : String}
    (adds : AddsDirectories (Path.stops tree.current path) tree made)
    (written : made.write path text = .ok changed) :
    WritesFile (· ∈ Path.stops tree.current path) (Path.destination tree.current path) text
      tree changed := by
  obtain ⟨leads, free, rfl⟩ := write_eq_ok written
  rw [adds.current] at leads free ⊢
  generalize Path.destination tree.current path = place at free ⊢
  generalize Path.stops tree.current path = way at adds leads ⊢
  have below : place ≠ [] := by
    rintro rfl
    exact free rfl
  -- The file is none of the places on the way, which are directories by now.
  have apart : place ∉ way := fun among => free (leads place among)
  have elsewhere : ∀ other, other ≠ place →
      (made.put place (.file (some text))).entryAt other = made.entryAt other := by
    intro other different
    rw [entryAt_put made _ below, if_neg (Ne.symm different)]
  constructor
  case current => exact adds.current
  case written => rw [entryAt_put made _ below, if_pos rfl]
  case replaced =>
    rcases adds.entries place with kept | ⟨among, -⟩
    · rwa [← kept]
    · exact absurd among apart
  case wasFree =>
    intro stop among
    rcases adds.entries stop with kept | ⟨-, missing, -⟩
    · exact Or.inr (kept ▸ leads stop among)
    · exact Or.inl missing
  case leads =>
    intro stop among
    rw [elsewhere stop fun same => apart (same ▸ among)]
    exact leads stop among
  case others =>
    intro other different aside
    rw [elsewhere other different]
    rcases adds.entries other with kept | ⟨among, -⟩
    · exact kept
    · exact absurd among aside

/-! ## Where the output goes -/

section Target
variable (tree : FileTree) (target : String)

def TakesFile : Prop := tree.kind target = .directory ∨ target.toList.getLast? = some '/'

instance : Decidable (tree.TakesFile target) :=
  inferInstanceAs (Decidable (tree.kind target = .directory ∨ target.toList.getLast? = some '/'))

def outputPlace : Place :=
  if tree.TakesFile target then Path.destination tree.current target ++ ["swagger.json"]
  else Path.destination tree.current target

def OnOutputWay (place : Place) : Prop :=
  place ∈ Path.stops tree.current target ∨
    tree.TakesFile target ∧ place = Path.destination tree.current target

end Target
end FileTree

namespace CommandLine

open FileTree

section Directories
variable {current : Place} {places : List Place}

theorem onlyAdds_acceptExisting (path : String) (made : Except FileError Unit) :
    OnlyAdds current places (acceptExisting store path made) := by
  cases made with
  | ok value => exact OnlyAdds.pure _
  | error cause =>
    refine (onlyAdds_kind path).bind fun kind => ?_
    split
    · exact OnlyAdds.pure _
    · exact OnlyAdds.pure _

theorem onlyAdds_makeDirectories {directories : List String}
    (among : ∀ directory ∈ directories, directory ≠ "" →
      Path.destination current directory ∈ places) :
    OnlyAdds current places (makeDirectories store directories) := by
  -- Each directory is tried, and tried again after those above it; both tries add only itself.
  induction directories with
  | nil => exact OnlyAdds.pure _
  | cons directory above ih =>
    rw [List.forall_mem_cons] at among
    rw [makeDirectories]
    split
    · exact OnlyAdds.pure _
    · next nonempty =>
      rw [String.isEmpty_iff] at nonempty
      have here := onlyAdds_makeDirectory (among.1 nonempty)
      refine here.bind fun made => ?_
      split
      · refine (ih among.2).bind fun madeAbove => ?_
        split
        · exact OnlyAdds.pure _
        · exact here.bind fun again => onlyAdds_acceptExisting directory again
      · exact onlyAdds_acceptExisting directory made

end Directories

theorem onlyAdds_makeParent (current : Place) (path : String) :
    OnlyAdds current (Path.stops current path) (makeParent store path) := by
  rw [makeParent]
  cases isParent : Path.parent? path with
  | none => exact OnlyAdds.pure _
  | some parent =>
    dsimp only
    split
    · exact OnlyAdds.pure _
    · have among : ∀ directory ∈ Path.ancestors (parent.length + 1) parent, directory ≠ "" →
          Path.destination current directory ∈ Path.stops current path := by
        intro directory isAncestor nonempty
        exact (Path.onTheWay_of_mem_ancestors _ (Path.onTheWay_of_parent? isParent) isAncestor
          nonempty).destination
      refine (onlyAdds_makeDirectories among).bind fun made => ?_
      split
      · exact OnlyAdds.pure _
      · exact OnlyAdds.pure _

/-! ## Delivering -/

section Deliver
variable (tree : FileTree) (target : String) (output : Prepared)

def targetPath : String := outputFile target (tree.kind target == .directory) output.extension

theorem targetPath_eq (isJson : output.extension = "json") :
    targetPath tree target output =
      if tree.TakesFile target then Path.join target "swagger.json" else target := by
  have named : outputStem ++ "." ++ output.extension = "swagger.json" := by
    rw [isJson]
    rfl
  have takes : (tree.kind target == .directory || target.toList.getLast? == some '/') = true ↔
      tree.TakesFile target := by
    rw [Bool.or_eq_true, beq_iff_eq, beq_iff_eq, TakesFile]
  rw [targetPath, outputFile, named]
  simp only [takes]

theorem targetPath_leads (isJson : output.extension = "json") (nonempty : target ≠ "") :
    Path.destination tree.current (targetPath tree target output) = tree.outputPlace target ∧
      ∀ place, place ∈ Path.stops tree.current (targetPath tree target output) ↔
        tree.OnOutputWay target place := by
  have plain : '/' ∉ "swagger.json".toList := by decide
  rw [targetPath_eq tree target output isJson, outputPlace]
  by_cases takes : tree.TakesFile target
  · rw [if_pos takes, if_pos takes]
    refine ⟨Path.destination_join nonempty plain (by decide), fun place => ?_⟩
    rw [Path.mem_stops_join nonempty plain, OnOutputWay]
    simp [takes]
  · rw [if_neg takes, if_neg takes]
    refine ⟨rfl, fun place => ?_⟩
    rw [OnOutputWay]
    simp [takes]

/-- Delivering to a target adds directories on the way and fails, or then writes there. -/
theorem run_deliver_target :
    (∃ cause later, (deliver store (some target) output).run tree = (.error cause, later) ∧
      AddsDirectories (Path.stops tree.current (targetPath tree target output)) tree later) ∨
    ∃ made later, (deliver store (some target) output).run tree = (.ok "", later) ∧
      AddsDirectories (Path.stops tree.current (targetPath tree target output)) tree made ∧
      made.write (targetPath tree target output) output.text = .ok later := by
  have adds := onlyAdds_makeParent tree.current (targetPath tree target output) tree rfl
  rw [deliver, StateT.run_bind, run_kind, pure_bind]
  dsimp only
  rw [targetPath] at adds ⊢
  generalize outputFile target (tree.kind target == .directory) output.extension = path at adds ⊢
  rw [StateT.run_bind]
  rcases parent : (makeParent store path).run tree with ⟨result, made⟩
  rw [parent] at adds
  cases result with
  | error cause => exact Or.inl ⟨cause, made, rfl, adds⟩
  | ok value =>
    change (∃ cause later, (store.write path output.text >>= _ :
      StateM FileTree (Except RunError String)).run made = (.error cause, later) ∧ _) ∨
      ∃ made' later, (store.write path output.text >>= _ :
        StateM FileTree (Except RunError String)).run made = (.ok "", later) ∧ _
    rw [StateT.run_bind, run_write, applyChange]
    cases written : made.write path output.text with
    | error cause => exact Or.inl ⟨.outputUnwritten path cause, made, rfl, adds⟩
    | ok changed => exact Or.inr ⟨made, changed, rfl, adds, written⟩

variable {tree target output}

theorem deliver_target_ok (isJson : output.extension = "json") {printed : String} {later : FileTree}
    (delivered : (deliver store (some target) output).run tree = (.ok printed, later)) :
    printed = "" ∧
      WritesFile (tree.OnOutputWay target) (tree.outputPlace target) output.text tree later := by
  rcases run_deliver_target tree target output with
    ⟨cause, _, run, -⟩ | ⟨made, _, run, adds, written⟩
  · cases run.symm.trans delivered
  · cases run.symm.trans delivered
    have nonempty : target ≠ "" := by
      rintro rfl
      cases written
    have writes := adds.writesFile written
    obtain ⟨place, way⟩ := targetPath_leads tree target output isJson nonempty
    have sameWay : (· ∈ Path.stops tree.current (targetPath tree target output)) =
        tree.OnOutputWay target := funext fun stop => propext (way stop)
    rw [place, sameWay] at writes
    exact ⟨rfl, writes⟩

/-- A delivery that fails leaves every file as it was. -/
theorem deliver_target_error {cause : RunError} {later : FileTree}
    (failed : (deliver store (some target) output).run tree = (.error cause, later)) :
    AddsDirectories (Path.stops tree.current (targetPath tree target output)) tree later := by
  rcases run_deliver_target tree target output with ⟨_, _, run, adds⟩ | ⟨_, _, run, -⟩
  · cases run.symm.trans failed
    exact adds
  · cases run.symm.trans failed

end Deliver

end CommandLine
end AnnotatedApi
