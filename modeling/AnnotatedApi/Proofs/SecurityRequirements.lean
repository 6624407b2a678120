import AnnotatedApi.Annotation.Operation
import AnnotatedApi.Proofs.ParameterLists
import Mathlib.Data.List.Basic

/-!
# Security requirements of an operation

Every annotation names a scheme and perhaps a permission.  There is one requirement for
every scheme, in the order in which the schemes first appear, and it has the permissions
of its own annotations in their order.
-/

set_option autoImplicit false

namespace AnnotatedApi

open Text

/-! ## What an annotation says -/

/-- The value is the name of a scheme, white space, and a permission; the latter two may be empty. -/
def NamesScheme (value : String) (pair : String × String) : Prop :=
  ∃ gap, IsSplit value.toList pair.1.toList gap pair.2.toList

theorem namesScheme_iff (value : String) (pair : String × String) :
    NamesScheme value pair ↔ twoTokens value = pair := by
  rw [NamesScheme, isSplit_iff, twoTokens, Prod.ext_iff, ← String.toList_inj, ← String.toList_inj,
    String.toList_ofList, String.toList_ofList]

theorem forall₂_namesScheme (values : List String) :
    List.Forall₂ NamesScheme values (values.map twoTokens) := by
  induction values with
  | nil => exact List.Forall₂.nil
  | cons value rest ih => exact List.Forall₂.cons ((namesScheme_iff value _).2 rfl) ih

def permissionsOf (pairs : List (String × String)) (scheme : String) : List String :=
  ((pairs.filter (·.1 = scheme)).map Prod.snd).filter (· ≠ "")

theorem toList_nonEmpty? (text : String) : (nonEmpty? text).toList = [text].filter (· ≠ "") := by
  rw [nonEmpty?_eq]
  by_cases empty : text = ""
  · simp [empty]
  · simp [empty]

theorem permissionsOf_append_singleton (pairs : List (String × String)) (scheme permission name : String) :
    permissionsOf (pairs ++ [(scheme, permission)]) name =
      permissionsOf pairs name ++ if name = scheme then (nonEmpty? permission).toList else [] := by
  rw [permissionsOf, List.filter_append, List.map_append, List.filter_append, ← permissionsOf]
  by_cases same : name = scheme
  · rw [if_pos same, toList_nonEmpty?]
    simp [same]
  · rw [if_neg same]
    simp [Ne.symm same]

theorem permissionsOf_eq_nil {pairs : List (String × String)} {scheme : String}
    (unnamed : scheme ∉ pairs.map Prod.fst) : permissionsOf pairs scheme = [] := by
  have others : pairs.filter (·.1 = scheme) = [] := by
    apply List.filter_eq_nil_iff.2
    intro pair among same
    apply unnamed
    rw [List.mem_map]
    exact ⟨pair, among, by simpa using same⟩
  rw [permissionsOf, others]
  rfl

/-! ## The order of first appearance -/

theorem eraseDups_append_singleton (names : List String) (name : String) :
    (names ++ [name]).eraseDups =
      if name ∈ names then names.eraseDups else names.eraseDups ++ [name] := by
  rw [List.eraseDups_append]
  by_cases seen : name ∈ names
  · rw [if_pos seen]
    simp [List.removeAll, seen]
  · have single : [name].eraseDups = [name] := by rw [List.eraseDups_cons]; rfl
    rw [if_neg seen]
    simp [List.removeAll, seen, single]

/-- Of two names that are kept, the one whose first place is earlier comes first. -/
theorem pairwise_idxOf_eraseDups (names : List String) :
    names.eraseDups.Pairwise fun first second => names.idxOf first < names.idxOf second := by
  induction names using List.reverseRecOn with
  | nil => exact List.Pairwise.nil
  | append_singleton names name ih =>
    have kept : names.eraseDups.Pairwise fun first second =>
        (names ++ [name]).idxOf first < (names ++ [name]).idxOf second := by
      apply ih.imp_of_mem
      intro first second firstAmong secondAmong before
      rw [List.idxOf_append_of_mem (List.mem_eraseDups.1 firstAmong),
        List.idxOf_append_of_mem (List.mem_eraseDups.1 secondAmong)]
      exact before
    rw [eraseDups_append_singleton]
    by_cases seen : name ∈ names
    · rw [if_pos seen]
      exact kept
    · rw [if_neg seen, List.pairwise_append]
      refine ⟨kept, List.pairwise_singleton _ _, ?_⟩
      intro first among last isLast
      obtain rfl := List.mem_singleton.1 isLast
      have inside := List.mem_eraseDups.1 among
      rw [List.idxOf_append_of_mem inside, List.idxOf_append_of_notMem seen]
      exact Nat.lt_of_lt_of_le (List.idxOf_lt_length_of_mem inside) (Nat.le_add_right _ _)

theorem nodup_eraseDups (names : List String) : names.eraseDups.Nodup := by
  apply (pairwise_idxOf_eraseDups names).imp
  rintro first _ before rfl
  exact Nat.lt_irrefl _ before

/-! ## One annotation more -/

section Step
variable (scheme permission : String)

/-- An annotation adds its permission to the requirement of its scheme and leaves the others
alone; a scheme that has none yet gets its requirement at the end. -/
theorem addRequirement_map {schemes : List String} (distinct : schemes.Nodup)
    (permissions : String → List String)
    (fresh : scheme ∉ schemes → permissions scheme = []) :
    addRequirement (schemes.map fun name => ⟨name, permissions name⟩) scheme permission =
      (if scheme ∈ schemes then schemes else schemes ++ [scheme]).map fun name =>
        ⟨name, permissions name ++ if name = scheme then (nonEmpty? permission).toList else []⟩ := by
  induction schemes with
  | nil =>
    simp [addRequirement, fresh List.not_mem_nil]
  | cons name rest ih =>
    rw [List.nodup_cons] at distinct
    rw [List.map_cons, addRequirement]
    by_cases same : name = scheme
    · subst same
      have others : ∀ other ∈ rest, other ≠ name := by
        intro other among
        exact ne_of_mem_of_not_mem among distinct.1
      rw [if_pos rfl, if_pos List.mem_cons_self, List.map_cons, if_pos rfl]
      congr 1
      apply List.map_congr_left
      intro other among
      rw [if_neg (others other among), List.append_nil]
    · have freshBehind : scheme ∉ rest → permissions scheme = [] := by
        intro absent
        apply fresh
        rw [List.mem_cons, not_or]
        exact ⟨Ne.symm same, absent⟩
      have head : (⟨name, permissions name⟩ : SecurityRequirement) =
          ⟨name, permissions name ++ if name = scheme then (nonEmpty? permission).toList else []⟩ := by
        rw [if_neg same, List.append_nil]
      rw [if_neg same, ih distinct.2 freshBehind, head]
      by_cases present : scheme ∈ rest
      · rw [if_pos present, if_pos (List.mem_cons_of_mem name present), List.map_cons]
      · have absent : scheme ∉ name :: rest := by
          rw [List.mem_cons, not_or]
          exact ⟨Ne.symm same, present⟩
        rw [if_neg present, if_neg absent, List.cons_append, List.map_cons]

end Step

/-! ## All annotations -/

theorem foldl_addRequirement (pairs : List (String × String)) :
    pairs.foldl (fun requirements pair => addRequirement requirements pair.1 pair.2) [] =
      (pairs.map Prod.fst).eraseDups.map fun scheme => ⟨scheme, permissionsOf pairs scheme⟩ := by
  induction pairs using List.reverseRecOn with
  | nil => rfl
  | append_singleton pairs pair ih =>
    obtain ⟨scheme, permission⟩ := pair
    have fresh : scheme ∉ (pairs.map Prod.fst).eraseDups → permissionsOf pairs scheme = [] := by
      intro absent
      apply permissionsOf_eq_nil
      rwa [List.mem_eraseDups] at absent
    rw [List.foldl_append, ih, List.foldl_cons, List.foldl_nil,
      addRequirement_map scheme permission (nodup_eraseDups _) (permissionsOf pairs) fresh,
      List.map_append, List.map_singleton, eraseDups_append_singleton]
    simp only [List.mem_eraseDups, permissionsOf_append_singleton]

/-- The requirements are written as objects of one key each.  The keys are the schemes that the
values name, each once, in the order of their first appearance; under each stand the permissions
of the values that name it, in their order. -/
theorem securityRequirements_grouped (values : List String) :
    ∃ (pairs : List (String × String)) (schemes : List String),
      List.Forall₂ NamesScheme values pairs ∧
      securityRequirements values =
        schemes.map (fun scheme => ⟨scheme, permissionsOf pairs scheme⟩) ∧
      (securityRequirements values).map SecurityRequirement.toJson =
        schemes.map (fun scheme =>
          .object [(scheme, Json.Value.strings (permissionsOf pairs scheme))]) ∧
      schemes.Nodup ∧ (∀ scheme, scheme ∈ schemes ↔ scheme ∈ pairs.map Prod.fst) ∧
      schemes.Pairwise fun first second =>
        (pairs.map Prod.fst).idxOf first < (pairs.map Prod.fst).idxOf second := by
  have grouped := foldl_addRequirement (values.map twoTokens)
  rw [← securityRequirements] at grouped
  refine ⟨values.map twoTokens, ((values.map twoTokens).map Prod.fst).eraseDups,
    forall₂_namesScheme values, grouped, ?_, nodup_eraseDups _, ?_, pairwise_idxOf_eraseDups _⟩
  · rw [grouped, List.map_map]
    rfl
  · intro scheme
    exact List.mem_eraseDups

example :
    securityRequirements ["berth_auth write:berths", "key", "berth_auth", " key  read", "key read"] =
      [⟨"berth_auth", ["write:berths"]⟩, ⟨"key", ["read"]⟩, ⟨"", ["key  read"]⟩] := by
  decide

end AnnotatedApi
