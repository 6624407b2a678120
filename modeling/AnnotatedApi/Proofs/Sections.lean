import AnnotatedApi.Comment.Basic
import AnnotatedApi.Proofs.Text

/-!
# The sections of a comment

A tag line closes the section in front of it and opens its own, wherever it stands.
What a comment says depends on its last lines only up to trailing white space, since
every section is trimmed after its lines are joined.
-/

set_option autoImplicit false

namespace AnnotatedApi.Comment

open Text

/-! ## Tag lines -/

/-- The line is indented by blanks and goes on with `@` and the first character of a name. -/
def BeginsTag (line : List Char) : Prop :=
  ∃ blanks first rest, line = blanks ++ '@' :: first :: rest ∧
    (∀ c ∈ blanks, c = ' ' ∨ c = '\t') ∧ isWordChar first = true

theorem isBlank_iff (c : Char) : isBlank c = true ↔ c = ' ' ∨ c = '\t' := by
  rw [isBlank, Bool.or_eq_true, beq_iff_eq, beq_iff_eq]

theorem dropWhile_isBlank_of_blanks {blanks : List Char} (indented : ∀ c ∈ blanks, c = ' ' ∨ c = '\t')
    (rest : List Char) : (blanks ++ '@' :: rest).dropWhile isBlank = '@' :: rest := by
  rw [List.dropWhile_append_of_pos fun c among => (isBlank_iff c).2 (indented c among)]
  exact List.dropWhile_cons_of_neg (by decide)

theorem isWordChar_iff (c : Char) :
    isWordChar c = true ↔
      (('A' ≤ c ∧ c ≤ 'Z' ∨ 'a' ≤ c ∧ c ≤ 'z') ∨ '0' ≤ c ∧ c ≤ '9') ∨ c = '_' := by
  have ranges : isWordChar c =
      (((decide ('A' ≤ c ∧ c ≤ 'Z') || 'a' ≤ c && c ≤ 'z') || '0' ≤ c && c ≤ '9') || c == '_') := rfl
  simp only [ranges, Bool.or_eq_true, Bool.and_eq_true, decide_eq_true_eq, beq_iff_eq]

theorem not_isSpace_of_isWordChar {c : Char} (word : isWordChar c = true) : isSpace c = false := by
  have ascii : 48 ≤ c.toNat ∧ c.toNat < 123 := by
    rw [isWordChar_iff] at word
    simp only [Char.le_def, UInt32.le_iff_toNat_le] at word
    rcases word with ((upper | lower) | digit) | rfl
    · exact ⟨Nat.le_trans (by decide) upper.1, Nat.lt_of_le_of_lt upper.2 (by decide)⟩
    · exact ⟨Nat.le_trans (by decide) lower.1, Nat.lt_of_le_of_lt lower.2 (by decide)⟩
    · exact ⟨digit.1, Nat.lt_of_le_of_lt digit.2 (by decide)⟩
    · decide
  simp only [isSpace, Bool.or_eq_false_iff, Bool.and_eq_false_iff, decide_eq_false_iff_not,
    beq_eq_false_iff_ne]
  omega

/-- A tag line is blanks, `@`, a name that is not empty, and what follows the name. -/
theorem tagLine?_eq_some_iff (line name head : List Char) :
    tagLine? line = some (name, head) ↔
      ∃ blanks, line = blanks ++ '@' :: (name ++ head) ∧ (∀ c ∈ blanks, c = ' ' ∨ c = '\t') ∧
        name ≠ [] ∧ (∀ c ∈ name, isWordChar c = true) ∧ ∀ c ∈ head.head?, isWordChar c = false := by
  constructor
  · intro found
    rw [tagLine?] at found
    split at found
    · rename_i rest marked
      simp only [List.isEmpty_iff] at found
      split at found
      · cases found
      · rename_i nonempty
        cases found
        refine ⟨line.takeWhile isBlank, ?_, ?_, nonempty, ?_, ?_⟩
        · rw [List.takeWhile_append_dropWhile, ← marked, List.takeWhile_append_dropWhile]
        · exact fun c among => (isBlank_iff c).1 (List.mem_takeWhile_imp among)
        · exact fun c among => List.mem_takeWhile_imp among
        · exact not_head_dropWhile isWordChar rest
    · cases found
  · rintro ⟨blanks, rfl, indented, nonempty, word, ended⟩
    obtain ⟨taken, dropped⟩ := takeWhile_dropWhile_append word ended
    rw [tagLine?, dropWhile_isBlank_of_blanks indented]
    simp only [taken, dropped, List.isEmpty_iff, if_neg nonempty]

theorem isTagLine_iff (line : List Char) : isTagLine line = true ↔ BeginsTag line := by
  rw [isTagLine, Option.isSome_iff_exists]
  constructor
  · rintro ⟨⟨name, head⟩, found⟩
    obtain ⟨blanks, rfl, indented, nonempty, word, -⟩ := (tagLine?_eq_some_iff _ _ _).1 found
    obtain ⟨first, rest, rfl⟩ := List.exists_cons_of_ne_nil nonempty
    exact ⟨blanks, first, rest ++ head, rfl, indented, word first List.mem_cons_self⟩
  · rintro ⟨blanks, first, rest, rfl, indented, word⟩
    have named : ((first :: rest).takeWhile isWordChar).isEmpty = false := by
      rw [List.takeWhile_cons_of_pos word]
      rfl
    refine ⟨((first :: rest).takeWhile isWordChar, (first :: rest).dropWhile isWordChar), ?_⟩
    rw [tagLine?, dropWhile_isBlank_of_blanks indented]
    simp only [named, Bool.false_eq_true, if_false]

theorem tagLine?_eq_none_iff (line : List Char) : tagLine? line = none ↔ ¬ BeginsTag line := by
  rw [← isTagLine_iff, isTagLine, Option.isSome_iff_ne_none, not_not]

theorem BeginsTag.append {front : List Char} (begins : BeginsTag front) (back : List Char) :
    BeginsTag (front ++ back) := by
  obtain ⟨blanks, first, rest, rfl, indented, word⟩ := begins
  exact ⟨blanks, first, rest ++ back, by simp, indented, word⟩

theorem tagLine?_trimEnd_eq_none {line : List Char} (untagged : tagLine? line = none) :
    tagLine? (trimEnd line) = none := by
  rw [tagLine?_eq_none_iff] at untagged ⊢
  intro begins
  obtain ⟨back, split⟩ : trimEnd line <+: line := List.rdropWhile_prefix isSpace line
  have whole := begins.append back
  rw [split] at whole
  exact untagged whole

theorem tagLine?_trimEnd_eq_some {line name head : List Char}
    (tagged : tagLine? line = some (name, head)) :
    tagLine? (trimEnd line) = some (name, trimEnd head) := by
  obtain ⟨blanks, rfl, indented, nonempty, word, ended⟩ := (tagLine?_eq_some_iff _ _ _).1 tagged
  obtain ⟨front, last, rfl⟩ := (List.eq_nil_or_concat' name).resolve_left nonempty
  have visible : isSpace last = false :=
    not_isSpace_of_isWordChar (word last (List.mem_append_right front (List.mem_singleton_self last)))
  have trimmed : trimEnd (blanks ++ '@' :: ((front ++ [last]) ++ head)) =
      blanks ++ '@' :: ((front ++ [last]) ++ trimEnd head) := by
    have cut := trimEnd_append_cons_of_not_space (blanks ++ '@' :: front) head visible
    simpa using cut
  refine (tagLine?_eq_some_iff _ _ _).2 ⟨blanks, trimmed, indented, nonempty, word, ?_⟩
  intro c first
  obtain ⟨back, split⟩ : trimEnd head <+: head := List.rdropWhile_prefix isSpace head
  refine ended c ?_
  rw [Option.mem_def, ← split, List.head?_append, Option.mem_def.1 first]
  rfl

/-! ## Sections -/

theorem sections_cons_of_tagLine {line name head : List Char}
    (tagged : tagLine? line = some (name, head)) (rest : List (List Char)) :
    sections (line :: rest) = ([], (name, head :: (sections rest).1) :: (sections rest).2) := by
  rw [sections]
  simp only [tagged]

theorem sections_cons_of_untagged {line : List Char} (untagged : tagLine? line = none)
    (rest : List (List Char)) :
    sections (line :: rest) = (line :: (sections rest).1, (sections rest).2) := by
  rw [sections]
  simp only [untagged]

theorem sections_append_of_untagged {text : List (List Char)}
    (untagged : ∀ line ∈ text, tagLine? line = none) (rest : List (List Char)) :
    sections (text ++ rest) = (text ++ (sections rest).1, (sections rest).2) := by
  induction text with
  | nil => rfl
  | cons line text ih =>
    rw [List.forall_mem_cons] at untagged
    rw [List.cons_append, sections_cons_of_untagged untagged.1, ih untagged.2, List.cons_append]

theorem sections_of_untagged {text : List (List Char)}
    (untagged : ∀ line ∈ text, tagLine? line = none) : sections text = (text, []) := by
  have split := sections_append_of_untagged untagged []
  rwa [List.append_nil, sections, List.append_nil] at split

/-- A tag line splits the sections, whatever stands in front of it. -/
theorem sections_append_cons_of_tagLine {line name head : List Char}
    (tagged : tagLine? line = some (name, head)) (front rest : List (List Char)) :
    sections (front ++ line :: rest) =
      ((sections front).1,
        (sections front).2 ++ (name, head :: (sections rest).1) :: (sections rest).2) := by
  induction front with
  | nil => rw [List.nil_append, sections_cons_of_tagLine tagged, sections, List.nil_append]
  | cons first front ih =>
    cases opened : tagLine? first with
    | none =>
      rw [List.cons_append, sections_cons_of_untagged opened, sections_cons_of_untagged opened, ih]
    | some tag =>
      obtain ⟨firstName, firstHead⟩ := tag
      rw [List.cons_append, sections_cons_of_tagLine opened, sections_cons_of_tagLine opened, ih,
        List.cons_append]

theorem exists_last_tagLine (content : List (List Char)) :
    (∀ line ∈ content, tagLine? line = none) ∨
      ∃ front line name head back, content = front ++ line :: back ∧
        tagLine? line = some (name, head) ∧ ∀ line ∈ back, tagLine? line = none := by
  induction content with
  | nil => exact Or.inl (by simp)
  | cons first content ih =>
    rcases ih with untagged | ⟨front, line, name, head, back, split, tagged, untagged⟩
    · cases opened : tagLine? first with
      | none => exact Or.inl (List.forall_mem_cons.2 ⟨opened, untagged⟩)
      | some tag => exact Or.inr ⟨[], first, tag.1, tag.2, content, rfl, opened, untagged⟩
    · exact Or.inr ⟨first :: front, line, name, head, back, by rw [split]; rfl, tagged, untagged⟩

/-! ## What the lines of a section say -/

theorem joined_append_trimEnd (front : List (List Char)) (line : List Char) :
    joined (front ++ [trimEnd line]) = joined (front ++ [line]) := by
  rw [joined, joined]
  by_cases empty : front = []
  · rw [empty]
    exact congrArg String.ofList (trim_trimEnd line)
  · rw [joinLines_append empty (List.cons_ne_nil _ _), joinLines_append empty (List.cons_ne_nil _ _)]
    have cut := trim_append_trimEnd (joinLines front ++ ['\n']) line
    rw [List.append_assoc, List.append_assoc] at cut
    exact congrArg String.ofList cut

theorem joined_append_blank (front : List (List Char)) : joined (front ++ [[]]) = joined front := by
  by_cases empty : front = []
  · rw [empty]
    rfl
  · rw [joined, joinLines_append empty (List.cons_ne_nil _ _), joined]
    have cut := trim_append_trimEnd (joinLines front) ['\n']
    rw [(trimEnd_eq_nil_iff ['\n']).2 (by decide), List.append_nil] at cut
    exact congrArg String.ofList cut.symm

theorem describe_cons_of_blank {line : List Char} (blank : isAllSpace line = true)
    (rest : List (List Char)) : describe (line :: rest) = describe rest := by
  rw [describe, List.dropWhile_cons_of_pos blank, describe]

theorem describe_cons_of_visible {line : List Char} (visible : isAllSpace line = false)
    (rest : List (List Char)) :
    describe (line :: rest) = (String.ofList (trim line), joined rest) := by
  rw [describe, List.dropWhile_cons_of_neg (by simp [visible])]

theorem describe_eq (text : List (List Char)) :
    describe text = (String.ofList (trim ((text.find? (!isAllSpace ·)).getD [])),
      joined ((text.dropWhile isAllSpace).drop 1)) := by
  induction text with
  | nil => rfl
  | cons line rest ih =>
    by_cases blank : isAllSpace line = true
    · rw [describe_cons_of_blank blank, ih, List.find?_cons_of_neg (by simp [blank]),
        List.dropWhile_cons_of_pos blank]
    · rw [Bool.not_eq_true] at blank
      rw [describe_cons_of_visible blank, List.find?_cons_of_pos (by simp [blank]),
        List.dropWhile_cons_of_neg (by simp [blank])]
      rfl

theorem ofContentLines_eq (content : List (List Char)) :
    ofContentLines content =
      { summary := (describe (sections content).1).1
        detail := (describe (sections content).1).2
        tags := Tags.ofList (occurrences (sections content).2) } := rfl

/-! ## The end of a comment -/

structure SameEnding (ending other : List (List Char)) : Prop where
  untagged : ∀ line ∈ ending, tagLine? line = none
  otherUntagged : ∀ line ∈ other, tagLine? line = none
  joined_eq : ∀ front, joined (front ++ ending) = joined (front ++ other)
  describe_eq : describe ending = describe other

theorem sameEnding_blank : SameEnding [[]] [] where
  untagged := by decide
  otherUntagged := by decide
  joined_eq front := by rw [joined_append_blank, List.append_nil]
  describe_eq := rfl

theorem sameEnding_trimEnd {line : List Char} (untagged : tagLine? line = none) :
    SameEnding [trimEnd line] [line] where
  untagged := List.forall_mem_singleton.2 (tagLine?_trimEnd_eq_none untagged)
  otherUntagged := List.forall_mem_singleton.2 untagged
  joined_eq front := joined_append_trimEnd front line
  describe_eq := by
    by_cases blank : isAllSpace line = true
    · rw [describe_cons_of_blank blank, describe_cons_of_blank (by rw [isAllSpace_trimEnd, blank])]
    · rw [Bool.not_eq_true] at blank
      rw [describe_cons_of_visible blank,
        describe_cons_of_visible (by rw [isAllSpace_trimEnd, blank]), trim_trimEnd]

namespace SameEnding
variable {ending other : List (List Char)}

theorem describe_append (same : SameEnding ending other) (front : List (List Char)) :
    describe (front ++ ending) = describe (front ++ other) := by
  induction front with
  | nil => exact same.describe_eq
  | cons line front ih =>
    rw [List.cons_append, List.cons_append]
    by_cases blank : isAllSpace line = true
    · rw [describe_cons_of_blank blank, describe_cons_of_blank blank, ih]
    · rw [Bool.not_eq_true] at blank
      rw [describe_cons_of_visible blank, describe_cons_of_visible blank, same.joined_eq front]

theorem ofContentLines_append (same : SameEnding ending other) (front : List (List Char)) :
    ofContentLines (front ++ ending) = ofContentLines (front ++ other) := by
  -- The endings reach the free text if there is no tag, else only the section of the last tag.
  rcases exists_last_tagLine front with
    untagged | ⟨before, line, name, head, back, rfl, tagged, untagged⟩
  · rw [ofContentLines_eq, ofContentLines_eq, sections_append_of_untagged untagged,
      sections_append_of_untagged untagged, sections_of_untagged same.untagged,
      sections_of_untagged same.otherUntagged]
    rw [same.describe_append front]
  · have joins := same.joined_eq (head :: back)
    rw [List.cons_append, List.cons_append] at joins
    rw [List.append_assoc, List.cons_append, List.append_assoc, List.cons_append,
      ofContentLines_eq, ofContentLines_eq, sections_append_cons_of_tagLine tagged,
      sections_append_cons_of_tagLine tagged,
      sections_append_of_untagged untagged, sections_append_of_untagged untagged,
      sections_of_untagged same.untagged, sections_of_untagged same.otherUntagged]
    simp only [occurrences, List.map_append, List.map_cons, List.map_nil, joins]

end SameEnding

theorem ofContentLines_cons_blank (content : List (List Char)) :
    ofContentLines ([] :: content) = ofContentLines content := by
  have untagged : tagLine? [] = none := rfl
  have blank : isAllSpace [] = true := rfl
  rw [ofContentLines_eq, sections_cons_of_untagged untagged, describe_cons_of_blank blank,
    ofContentLines_eq]

theorem ofContentLines_append_trimEnd (front : List (List Char)) (line : List Char) :
    ofContentLines (front ++ [trimEnd line]) = ofContentLines (front ++ [line]) := by
  cases opened : tagLine? line with
  | none => exact (sameEnding_trimEnd opened).ofContentLines_append front
  | some tag =>
    obtain ⟨name, head⟩ := tag
    have joins := joined_append_trimEnd [] head
    rw [List.nil_append, List.nil_append] at joins
    rw [ofContentLines_eq, ofContentLines_eq, sections_append_cons_of_tagLine opened,
      sections_append_cons_of_tagLine (tagLine?_trimEnd_eq_some opened)]
    simp only [sections, occurrences, List.map_append, List.map_cons, List.map_nil, joins]

end AnnotatedApi.Comment
