import AnnotatedApi.Proofs.LineEndings
import AnnotatedApi.Proofs.TagOccurrences
import AnnotatedApi.Proofs.TokenRuns
import AnnotatedApi.Proofs.WrittenComments

/-!
# The shape of a comment

Whatever text is read, the names of its tags are words, its values, its summary and its detail
are trimmed, and no line but the first of a value or of the detail looks like a tag line.  There
is one occurrence for every tag line.  So the first of two or more tokens that are taken from a
value is empty only if the value is.
-/

set_option autoImplicit false

namespace AnnotatedApi.Comment

open Text

/-! ## Sections -/

/-- A word, the rest of its tag line, and lines that are no tag lines. -/
structure IsSection (tag : List Char × List (List Char)) : Prop where
  named : tag.1 ≠ []
  word : ∀ c ∈ tag.1, isWordChar c = true
  untagged : ∀ line ∈ tag.2.tail, ¬ BeginsTag line

/-- Every tag line opens one section, and no other line of a section or of the free text is one. -/
theorem sections_shape (content : List (List Char)) :
    (∀ line ∈ (sections content).1, ¬ BeginsTag line) ∧
      (∀ tag ∈ (sections content).2, IsSection tag) ∧
      (sections content).2.length = content.countP (BeginsTag ·) := by
  induction content with
  | nil => simp [sections]
  | cons line rest ih =>
    obtain ⟨text, tags, number⟩ := ih
    cases opened : tagLine? line with
    | none =>
      have plain := (tagLine?_eq_none_iff line).1 opened
      rw [sections_cons_of_untagged opened, List.countP_cons_of_neg (by simpa using plain)]
      exact ⟨List.forall_mem_cons.2 ⟨plain, text⟩, tags, number⟩
    | some tag =>
      obtain ⟨name, head⟩ := tag
      obtain ⟨blanks, -, -, named, word, -⟩ := (tagLine?_eq_some_iff _ _ _).1 opened
      have begins : BeginsTag line := (isTagLine_iff line).1 (by rw [isTagLine, opened]; rfl)
      rw [sections_cons_of_tagLine opened, List.countP_cons_of_pos (by simpa using begins)]
      refine ⟨by simp, List.forall_mem_cons.2 ⟨⟨named, word, text⟩, tags⟩, ?_⟩
      rw [List.length_cons, number]

/-! ## What a section says -/

theorem trimmed_joined (pieces : List (List Char)) : Trimmed (joined pieces).toList := by
  rw [joined, String.toList_ofList]
  exact trimmed_trim _

theorem not_beginsTag_joined {pieces : List (List Char)} (unbroken : ∀ piece ∈ pieces, '\n' ∉ piece)
    (untagged : ∀ line ∈ pieces.tail, ¬ BeginsTag line) :
    ∀ line ∈ (splitAt '\n' (joined pieces).toList).tail, ¬ BeginsTag line := by
  intro line later begins
  rw [joined, String.toList_ofList] at later
  obtain ⟨behind, whole⟩ := exists_later_piece '\n' (isInfix_trim (joinLines pieces)) later
  rw [joinLines, tail_splitAt_joinWith '\n' unbroken] at whole
  exact untagged _ whole (begins.append behind)

theorem describe_cases (text : List (List Char)) :
    describe text = ("", "") ∨
      ∃ line rest, (∀ other ∈ line :: rest, other ∈ text) ∧ isAllSpace line = false ∧
        describe text = (String.ofList (trim line), joined rest) := by
  induction text with
  | nil => exact Or.inl rfl
  | cons line rest ih =>
    by_cases blank : isAllSpace line = true
    · rw [describe_cons_of_blank blank]
      refine ih.imp_right ?_
      rintro ⟨first, later, among, visible, described⟩
      exact ⟨first, later, fun other inside => List.mem_cons_of_mem line (among other inside),
        visible, described⟩
    · rw [Bool.not_eq_true] at blank
      exact Or.inr ⟨line, rest, fun _ => id, blank, describe_cons_of_visible blank rest⟩

theorem not_newline_mem_contentLines (raw : List Char) : ∀ line ∈ contentLines raw, '\n' ∉ line := by
  intro line among inLine
  rw [contentLines] at among
  obtain ⟨whole, inBody, rfl⟩ := List.mem_map.1 among
  exact not_newline_mem_lines inBody ((Style.content_suffix _ whole).subset inLine)

/-! ## Whole comments -/

/-- What can be said of every comment without knowing its text. -/
structure Shaped (comment : Comment) : Prop where
  names : ∀ name ∈ KeyMap.keys comment.tags,
    name.toList ≠ [] ∧ ∀ c ∈ name.toList, isWordChar c = true
  values : ∀ name, ∀ value ∈ Tags.values comment.tags name, Trimmed value.toList ∧
    ∀ line ∈ (splitAt '\n' value.toList).tail, ¬ BeginsTag line
  summary : Trimmed comment.summary.toList ∧ '\n' ∉ comment.summary.toList
  detail : Trimmed comment.detail.toList ∧
    ∀ line ∈ (splitAt '\n' comment.detail.toList).tail, ¬ BeginsTag line
  detail_of_no_summary : comment.summary = "" → comment.detail = ""

theorem describe_shape {text : List (List Char)} (unbroken : ∀ line ∈ text, '\n' ∉ line)
    (untagged : ∀ line ∈ text, ¬ BeginsTag line) :
    (Trimmed (describe text).1.toList ∧ '\n' ∉ (describe text).1.toList) ∧
      (Trimmed (describe text).2.toList ∧
        ∀ line ∈ (splitAt '\n' (describe text).2.toList).tail, ¬ BeginsTag line) ∧
      ((describe text).1 = "" → (describe text).2 = "") := by
  rcases describe_cases text with described | ⟨line, rest, among, visible, described⟩
  · rw [described]
    exact ⟨⟨⟨by simp, by simp⟩, by simp⟩, ⟨⟨by simp, by simp⟩, by simp [splitAt]⟩, fun _ => rfl⟩
  · have here : '\n' ∉ line := unbroken line (among line List.mem_cons_self)
    have inText : ∀ other ∈ rest, other ∈ text :=
      fun other inRest => among other (List.mem_cons_of_mem line inRest)
    have untaggedTail : ∀ other ∈ rest.tail, ¬ BeginsTag other :=
      fun other later => untagged other (inText other (List.mem_of_mem_tail later))
    rw [described]
    refine ⟨⟨?_, ?_⟩, ⟨trimmed_joined rest, ?_⟩, ?_⟩
    · rw [String.toList_ofList]
      exact trimmed_trim line
    · rw [String.toList_ofList]
      exact fun inSummary => here (trim_subset line inSummary)
    · exact not_beginsTag_joined (fun other inRest => unbroken other (inText other inRest)) untaggedTail
    · intro empty
      rw [String.ofList_eq_empty_iff, trim_eq_nil_iff, visible] at empty
      cases empty

/-- The tags of a comment have the names and the lines of its sections. -/
theorem exists_section_of_value {content : List (List Char)} {name value : String}
    (among : value ∈ Tags.values (ofContentLines content).tags name) :
    ∃ tag ∈ (sections content).2, name = String.ofList tag.1 ∧ value = joined tag.2 := by
  rw [ofContentLines_eq, Tags.values_ofList, List.mem_map] at among
  obtain ⟨pair, found, rfl⟩ := among
  obtain ⟨inOccurrences, named⟩ := List.mem_filter.1 found
  obtain ⟨tag, inTags, rfl⟩ := List.mem_map.1 inOccurrences
  exact ⟨tag, inTags, (of_decide_eq_true named).symm, rfl⟩

theorem exists_section_of_name {content : List (List Char)} {name : String}
    (among : name ∈ KeyMap.keys (ofContentLines content).tags) :
    ∃ tag ∈ (sections content).2, name = String.ofList tag.1 := by
  obtain ⟨value, inValues⟩ := Tags.exists_mem_values_of_mem_keys among
  obtain ⟨tag, inTags, named, -⟩ := exists_section_of_value inValues
  exact ⟨tag, inTags, named⟩

theorem shaped_ofContentLines {content : List (List Char)}
    (unbroken : ∀ line ∈ content, '\n' ∉ line) : Shaped (ofContentLines content) := by
  obtain ⟨untagged, isSection, -⟩ := sections_shape content
  obtain ⟨unbrokenText, unbrokenTags⟩ := not_mem_sections unbroken
  obtain ⟨summary, detail, noDetail⟩ := describe_shape unbrokenText untagged
  refine ⟨?_, ?_, summary, detail, noDetail⟩
  · intro name among
    obtain ⟨tag, inTags, rfl⟩ := exists_section_of_name among
    rw [String.toList_ofList]
    exact ⟨(isSection tag inTags).named, (isSection tag inTags).word⟩
  · intro name value among
    obtain ⟨tag, inTags, rfl, rfl⟩ := exists_section_of_value among
    exact ⟨trimmed_joined tag.2,
      not_beginsTag_joined (unbrokenTags tag inTags) (isSection tag inTags).untagged⟩

theorem occurrenceCount_ofContentLines (content : List (List Char)) :
    Tags.occurrenceCount (ofContentLines content).tags = content.countP (BeginsTag ·) := by
  rw [ofContentLines_eq, Tags.occurrenceCount_ofList, occurrences, List.length_map]
  exact (sections_shape content).2.2

theorem headToken_ne_nil {text : List Char} (trimmed : Trimmed text) (nonempty : text ≠ []) :
    headToken text ≠ [] := by
  obtain ⟨c, rest, rfl⟩ := List.exists_cons_of_ne_nil nonempty
  have visible : isSpace c = false := trimmed.begun c rfl
  rw [headToken, List.takeWhile_cons_of_pos (by simp [visible])]
  exact List.cons_ne_nil _ _

/-- Every comment has this shape, and an occurrence for every line that is a tag line once its
gutter is gone.  So of two or more tokens that are taken from a value that is not empty, the first
is not empty either and has no white space; a single token is the whole value. -/
theorem parse_shaped (raw : String) :
    Shaped (parse raw) ∧
      Tags.occurrenceCount (parse raw).tags = (contentLines raw.toList).countP (BeginsTag ·) ∧
      ∀ name, ∀ value ∈ Tags.values (parse raw).tags name, value ≠ "" →
        (fixedTokens 1 value)[0]? = some value ∧
        ∀ count, ∃ first, (fixedTokens (count + 2) value)[0]? = some first ∧ first ≠ "" ∧
          ∀ c ∈ first.toList, isSpace c = false := by
  have shaped : Shaped (parse raw) := shaped_ofContentLines (not_newline_mem_contentLines raw.toList)
  refine ⟨shaped, occurrenceCount_ofContentLines (contentLines raw.toList), ?_⟩
  intro name value among nonempty
  refine ⟨fixedTokens_one value, fun count => ⟨_, fixedTokens_first count value, ?_, ?_⟩⟩
  · rw [ne_eq, String.ofList_eq_empty_iff]
    apply headToken_ne_nil (shaped.values name value among).1
    rwa [ne_eq, String.toList_eq_nil_iff]
  · rw [String.toList_ofList]
    intro c inToken
    rw [headToken] at inToken
    simpa using List.mem_takeWhile_imp inToken

/-- A single token is not cut, so it has the white space of the value. -/
theorem spaced_single_token :
    ¬ ∀ name, ∀ value ∈ Tags.values (parse "@return int32 the count").tags name, value ≠ "" →
      ∀ count, ∀ first, (fixedTokens count value)[0]? = some first →
        first ≠ "" ∧ ∀ c ∈ first.toList, isSpace c = false := by
  intro unspaced
  have first := unspaced "return" "int32 the count" (by decide) (by decide) 1 "int32 the count" (by decide)
  have space := first.2 ' ' (by decide)
  exact absurd space (by decide)

/-- Trimming can bring a tag line to the front of a value, where it is none any more. -/
example :
    parse "@default\n\u00a0@path /quay\n@ path\n@path /pier" =
      { summary := "", detail := ""
        tags := [("default", .single "@path /quay\n@ path"), ("path", .single "/pier")] } := by
  decide

end AnnotatedApi.Comment
