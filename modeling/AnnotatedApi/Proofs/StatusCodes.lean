import AnnotatedApi.Annotation.Operation
import AnnotatedApi.Proofs.Text

/-!
# Status codes in a text

An entry is a code, white space and a description.  The search for a code takes the
first place where an entry stands whose description is all on one line, so an entry
with more lines is passed over, and what it describes is searched like any text.
-/

set_option autoImplicit false

namespace AnnotatedApi

open Text

/-! ## Digits and white space -/

theorem Text.isDecimalDigit_of_isSpace {c : Char} (space : isSpace c = true) :
    isDecimalDigit c = false := by
  -- The digits of every script stand in one of the gaps between the white space.
  have apart : ∀ start ∈ digitZeros,
      (0x20 < start ∧ start + 9 < 0x85) ∨ (0xA0 < start ∧ start + 9 < 0x1680) ∨
        (0x1680 < start ∧ start + 9 < 0x2000) ∨ (0x205F < start ∧ start + 9 < 0x3000) ∨
        0x3000 < start := by
    decide
  simp only [isSpace, Bool.or_eq_true, Bool.and_eq_true, decide_eq_true_eq, beq_iff_eq] at space
  rw [isDecimalDigit, List.any_eq_false]
  intro start among
  have gap := apart start among
  simp only [Bool.and_eq_true, decide_eq_true_eq]
  omega

/-! ## Entries -/

/-- A code, the white space after it, and a description that begins with something else. -/
structure IsEntry (code gap description : List Char) : Prop where
  coded : code ≠ []
  digits : ∀ c ∈ code, isDecimalDigit c = true
  apart : gap ≠ []
  spaces : ∀ c ∈ gap, isSpace c = true
  visible : ∀ c ∈ description.head?, isSpace c = false

theorem isEntry_iff (code gap description : List Char) :
    IsEntry code gap description ↔ code ≠ [] ∧ code.all isDecimalDigit = true ∧ gap ≠ [] ∧
      gap.all isSpace = true ∧ description.head?.all (! isSpace ·) = true := by
  simp only [List.all_eq_true, Option.all_eq_true, Bool.not_eq_true']
  constructor
  · rintro ⟨coded, digits, apart, spaces, visible⟩
    exact ⟨coded, digits, apart, spaces, visible⟩
  · rintro ⟨coded, digits, apart, spaces, visible⟩
    exact ⟨coded, digits, apart, spaces, visible⟩

instance (code gap description : List Char) : Decidable (IsEntry code gap description) :=
  decidable_of_iff _ (isEntry_iff code gap description).symm

def BeginsWithCode (text : List Char) : Prop :=
  ∃ code space rest, text = code ++ space :: rest ∧ code ≠ [] ∧
    (∀ c ∈ code, isDecimalDigit c = true) ∧ isSpace space = true

theorem takeWhile_digits_append {code : List Char} (digits : ∀ c ∈ code, isDecimalDigit c = true)
    {space : Char} (isGap : isSpace space = true) (rest : List Char) :
    (code ++ space :: rest).takeWhile isDecimalDigit = code ∧
      (code ++ space :: rest).dropWhile isDecimalDigit = space :: rest := by
  apply takeWhile_dropWhile_append digits
  intro c first
  cases first
  exact isDecimalDigit_of_isSpace isGap

/-- A text that begins with a code is an entry in one way. -/
theorem BeginsWithCode.exists_entry {text : List Char} (begins : BeginsWithCode text) :
    ∃ code gap description, text = code ++ (gap ++ description) ∧
      IsEntry code gap description := by
  obtain ⟨code, space, rest, rfl, coded, digits, isGap⟩ := begins
  have split := List.takeWhile_append_dropWhile (p := isSpace) (l := space :: rest)
  refine ⟨code, _, _, by rw [split], coded, digits, ?_, ?_, not_head_dropWhile isSpace _⟩
  · rw [List.takeWhile_cons_of_pos isGap]
    exact List.cons_ne_nil _ _
  · exact fun c among => List.mem_takeWhile_imp among

theorem beginsWithCode_iff (text : List Char) :
    BeginsWithCode text ↔ text.takeWhile isDecimalDigit ≠ [] ∧
      (text.dropWhile isDecimalDigit).takeWhile isSpace ≠ [] := by
  constructor
  · rintro ⟨code, space, rest, rfl, coded, digits, isGap⟩
    obtain ⟨taken, dropped⟩ := takeWhile_digits_append digits isGap rest
    rw [taken, dropped, List.takeWhile_cons_of_pos isGap]
    exact ⟨coded, List.cons_ne_nil _ _⟩
  · rintro ⟨coded, apart⟩
    have split := List.takeWhile_append_dropWhile (p := isDecimalDigit) (l := text)
    cases after : text.dropWhile isDecimalDigit with
    | nil => simp [after] at apart
    | cons space rest =>
      have isGap : isSpace space = true := by
        by_contra visible
        rw [after, List.takeWhile_cons_of_neg visible] at apart
        exact apart rfl
      rw [after] at split
      exact ⟨_, space, rest, split.symm, coded, fun _ => List.mem_takeWhile_imp, isGap⟩

instance (text : List Char) : Decidable (BeginsWithCode text) :=
  decidable_of_iff _ (beginsWithCode_iff text).symm

theorem statusHere?_of_not_begins {text : List Char} (other : ¬ BeginsWithCode text) :
    statusHere? text = none := by
  rw [beginsWithCode_iff, not_and_or, not_not, not_not] at other
  rw [statusHere?]
  rcases other with codeless | gapless
  · simp [codeless]
  · simp [gapless]

section Entry
variable {code gap description : List Char} (entry : IsEntry code gap description)
include entry

theorem IsEntry.statusHere?_eq :
    statusHere? (code ++ (gap ++ description)) =
      if '\n' ∈ description then none else some (code, description) := by
  have digits : (code ++ (gap ++ description)).takeWhile isDecimalDigit = code ∧
      (code ++ (gap ++ description)).dropWhile isDecimalDigit = gap ++ description := by
    obtain ⟨space, spaces, rfl⟩ := List.exists_cons_of_ne_nil entry.apart
    exact takeWhile_digits_append entry.digits (entry.spaces space List.mem_cons_self) _
  have spaces := takeWhile_dropWhile_append entry.spaces entry.visible
  rw [statusHere?]
  simp only [digits, spaces]
  simp [entry.coded, entry.apart]

end Entry

theorem statusHere?_eq_some_iff (text code description : List Char) :
    statusHere? text = some (code, description) ↔
      ∃ gap, text = code ++ (gap ++ description) ∧ IsEntry code gap description ∧
        '\n' ∉ description := by
  constructor
  · intro found
    have begins : BeginsWithCode text := by
      by_contra other
      rw [statusHere?_of_not_begins other] at found
      cases found
    obtain ⟨code', gap, description', rfl, entry⟩ := begins.exists_entry
    rw [entry.statusHere?_eq] at found
    split at found
    · cases found
    · next oneLine =>
      cases found
      exact ⟨gap, rfl, entry, oneLine⟩
  · rintro ⟨gap, rfl, entry, oneLine⟩
    rw [entry.statusHere?_eq, if_neg oneLine]

/-! ## The search -/

theorem status?_of_here {text : List Char} {found : List Char × List Char}
    (here : statusHere? text = some found) : status? text = some found := by
  cases text with
  | nil => simp [statusHere?] at here
  | cons c rest => rw [status?, here]

theorem status?_cons_of_passed {c : Char} {rest : List Char}
    (passed : statusHere? (c :: rest) = none) : status? (c :: rest) = status? rest := by
  rw [status?, passed]

theorem status?_append_of_spaces {gap : List Char} (spaces : ∀ c ∈ gap, isSpace c = true)
    (rest : List Char) : status? (gap ++ rest) = status? rest := by
  induction gap with
  | nil => rfl
  | cons c gap ih =>
    rw [List.forall_mem_cons] at spaces
    have other : ¬ BeginsWithCode (c :: (gap ++ rest)) := by
      rintro ⟨code, space, after, split, coded, digits, -⟩
      obtain ⟨digit, code, rfl⟩ := List.exists_cons_of_ne_nil coded
      obtain ⟨rfl, -⟩ := List.cons.inj split
      have isDigit := digits c List.mem_cons_self
      rw [isDecimalDigit_of_isSpace spaces.1] at isDigit
      cases isDigit
    rw [List.cons_append, status?_cons_of_passed (statusHere?_of_not_begins other), ih spaces.2]

/-- An entry that goes on over several lines is passed over: its description is searched
as if nothing stood in front of it. -/
theorem IsEntry.status?_eq {code gap description : List Char}
    (entry : IsEntry code gap description) :
    status? (code ++ (gap ++ description)) =
      if '\n' ∈ description then status? description else some (code, description) := by
  by_cases oneLine : '\n' ∈ description
  · rw [if_pos oneLine]
    obtain ⟨-, digits, apart, spaces, visible⟩ := entry
    -- Every end of the run of digits begins an entry with the same description.
    induction code with
    | nil => exact status?_append_of_spaces spaces description
    | cons c code ih =>
      have here : IsEntry (c :: code) gap description :=
        ⟨List.cons_ne_nil c code, digits, apart, spaces, visible⟩
      have passed := here.statusHere?_eq
      rw [if_pos oneLine] at passed
      exact (status?_cons_of_passed passed).trans (ih (List.forall_mem_cons.1 digits).2)
  · have here := entry.statusHere?_eq
    rw [if_neg oneLine] at here ⊢
    exact status?_of_here here

/-- Somewhere in the text stands an entry whose description is on one line, up to the end. -/
def HoldsEntry (text : List Char) : Prop :=
  ∃ front code gap description, text = front ++ (code ++ (gap ++ description)) ∧
    IsEntry code gap description ∧ '\n' ∉ description

theorem exists_entry_of_status? {text code description : List Char}
    (found : status? text = some (code, description)) :
    ∃ front gap, text = front ++ (code ++ (gap ++ description)) ∧
      IsEntry code gap description ∧ '\n' ∉ description := by
  induction text with
  | nil => cases found
  | cons c rest ih =>
    cases here : statusHere? (c :: rest) with
    | none =>
      rw [status?_cons_of_passed here] at found
      obtain ⟨front, gap, rfl, entry, oneLine⟩ := ih found
      exact ⟨c :: front, gap, rfl, entry, oneLine⟩
    | some first =>
      rw [status?_of_here here] at found
      obtain rfl := Option.some.inj found
      obtain ⟨gap, split, entry, oneLine⟩ := (statusHere?_eq_some_iff _ _ _).1 here
      exact ⟨[], gap, split, entry, oneLine⟩

theorem status?_eq_none_iff (text : List Char) : status? text = none ↔ ¬ HoldsEntry text := by
  constructor
  · rintro absent ⟨front, code, gap, description, rfl, entry, oneLine⟩
    induction front with
    | nil =>
      rw [List.nil_append, entry.status?_eq, if_neg oneLine] at absent
      cases absent
    | cons c front ih =>
      cases here : statusHere? (c :: (front ++ (code ++ (gap ++ description)))) with
      | none => exact ih ((status?_cons_of_passed here).symm.trans absent)
      | some first =>
        rw [List.cons_append, status?_of_here here] at absent
        cases absent
  · intro none
    cases found : status? text with
    | none => rfl
    | some first =>
      obtain ⟨front, gap, split, entry, oneLine⟩ := exists_entry_of_status? found
      exact absurd ⟨front, _, gap, _, split, entry, oneLine⟩ none

end AnnotatedApi
