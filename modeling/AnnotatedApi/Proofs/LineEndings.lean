import AnnotatedApi.Proofs.Gutters
import AnnotatedApi.Proofs.Sections

/-!
# Line endings

A line may end in a line feed or in a carriage return and a line feed.  Carriage returns are
removed only from the body of a comment, after its ends are trimmed and its delimiters taken
off.  Neither step minds them: a carriage return in front of a line feed is white space next
to white space, and it is no part of a delimiter.
-/

set_option autoImplicit false

namespace AnnotatedApi.Comment

open Text

/-- The text with a carriage return in front of every line feed. -/
def returned (text : List Char) : List Char :=
  text.flatMap fun c => if c = '\n' then ['\r', '\n'] else [c]

theorem returned_cons_newline (rest : List Char) :
    returned ('\n' :: rest) = '\r' :: '\n' :: returned rest := rfl

theorem returned_cons_of_ne {c : Char} (other : c ≠ '\n') (rest : List Char) :
    returned (c :: rest) = c :: returned rest := by
  rw [returned, List.flatMap_cons, if_neg other]
  rfl

theorem returned_append (front back : List Char) :
    returned (front ++ back) = returned front ++ returned back := List.flatMap_append

theorem filter_returned (text : List Char) :
    (returned text).filter (· != '\r') = text.filter (· != '\r') := by
  induction text with
  | nil => rfl
  | cons c rest ih =>
    by_cases newline : c = '\n'
    · subst newline
      rw [returned_cons_newline, List.filter_cons_of_neg (by decide),
        List.filter_cons_of_pos (by decide), List.filter_cons_of_pos (by decide), ih]
    · rw [returned_cons_of_ne newline, List.filter_cons, List.filter_cons, ih]

/-! ## Trimming -/

theorem ne_newline_of_not_space {c : Char} (visible : isSpace c = false) : c ≠ '\n' := by
  rintro rfl
  exact absurd visible (by decide)

theorem isAllSpace_returned (text : List Char) : isAllSpace (returned text) = isAllSpace text := by
  induction text with
  | nil => rfl
  | cons c rest ih =>
    simp only [isAllSpace] at ih ⊢
    by_cases newline : c = '\n'
    · subst newline
      rw [returned_cons_newline, List.all_cons, List.all_cons, List.all_cons, ih]
      rfl
    · rw [returned_cons_of_ne newline, List.all_cons, List.all_cons, ih]

theorem trimStart_returned (text : List Char) :
    trimStart (returned text) = returned (trimStart text) := by
  induction text with
  | nil => rfl
  | cons c rest ih =>
    by_cases visible : isSpace c = false
    · rw [trimStart_of_not_space visible, returned_cons_of_ne (ne_newline_of_not_space visible),
        trimStart_of_not_space visible]
    · have space : isAllSpace [c] = true := by simpa [isAllSpace] using visible
      have split := returned_append [c] rest
      rw [List.singleton_append] at split
      rw [split, trimStart_append_of_allSpace (by rw [isAllSpace_returned, space]), ih,
        ← List.singleton_append, trimStart_append_of_allSpace space]

theorem trimEnd_returned (text : List Char) : trimEnd (returned text) = returned (trimEnd text) := by
  induction text with
  | nil => rfl
  | cons c rest ih =>
    have single : trimEnd (returned [c]) = returned (trimEnd [c]) := by
      by_cases space : isAllSpace [c] = true
      · rw [(trimEnd_eq_nil_iff _).2 space,
          (trimEnd_eq_nil_iff _).2 (by rw [isAllSpace_returned, space])]
        rfl
      · have visible : isSpace c = false := by simpa [isAllSpace] using space
        have kept : trimEnd [c] = [c] := trimEnd_append_cons_of_not_space [] [] visible
        rw [kept, returned_cons_of_ne (ne_newline_of_not_space visible)]
        exact kept
    rw [← List.singleton_append, returned_append, trimEnd_append, trimEnd_append,
      isAllSpace_returned, ih, single]
    by_cases allSpace : isAllSpace rest = true
    · rw [if_pos allSpace, if_pos allSpace]
    · rw [if_neg allSpace, if_neg allSpace, returned_append]

theorem trim_returned (text : List Char) : trim (returned text) = returned (trim text) := by
  rw [trim, trimStart_returned, trimEnd_returned, trim]

/-! ## Delimiters -/

theorem stripFront?_returned {front : List Char} (unbroken : Unbroken front) (text : List Char) :
    stripFront? front (returned text) = (stripFront? front text).map returned := by
  induction front generalizing text with
  | nil => rfl
  | cons c front ih =>
    have noFeed : '\n' ∉ c :: front := unbroken.1
    have noReturn : '\r' ∉ c :: front := unbroken.2
    rw [List.mem_cons, not_or] at noFeed noReturn
    cases text with
    | nil => rfl
    | cons first rest =>
      by_cases newline : first = '\n'
      · subst newline
        rw [returned_cons_newline, stripFront?_cons, stripFront?_cons,
          if_neg (Ne.symm noReturn.1), if_neg (Ne.symm noFeed.1)]
        rfl
      · rw [returned_cons_of_ne newline, stripFront?_cons, stripFront?_cons]
        by_cases same : c = first
        · rw [if_pos same, if_pos same, ih ⟨noFeed.2, noReturn.2⟩ rest]
        · rw [if_neg same, if_neg same]
          rfl

theorem afterOpener?_returned (text : List Char) :
    afterOpener? (returned text) = (afterOpener? text).map returned := by
  rw [afterOpener?_eq, afterOpener?_eq, stripFront?_returned (by decide),
    stripFront?_returned (by decide)]
  cases stripFront? ['/', '*', '*'] text <;> rfl

theorem exists_of_returned_eq_append {text stem : List Char} {c : Char} (other : c ≠ '\n')
    (split : returned text = stem ++ [c]) : ∃ front, text = front ++ [c] ∧ stem = returned front := by
  rcases List.eq_nil_or_concat' text with rfl | ⟨front, last, rfl⟩
  · simp [returned] at split
  · rw [returned_append] at split
    by_cases newline : last = '\n'
    · subst newline
      have ends : (returned front ++ ['\r']) ++ ['\n'] = stem ++ [c] := by
        rw [← split, List.append_assoc]
        rfl
      have same := (List.append_inj' ends rfl).2
      simp only [List.cons.injEq, and_true] at same
      exact absurd same.symm other
    · rw [returned_cons_of_ne newline] at split
      obtain ⟨stems, same⟩ := List.append_inj' split rfl
      have sameLast : last = c := (List.cons.inj same).1
      exact ⟨front, by rw [sameLast], stems.symm⟩

theorem beforeCloser_returned (text : List Char) :
    beforeCloser (returned text) = returned (beforeCloser text) := by
  rw [beforeCloser, beforeCloser]
  cases closed : stripBack? ['*', '/'] text with
  | some body =>
    have split : returned text = returned body ++ ['*', '/'] := by
      rw [(stripBack?_eq_some_iff _ _ _).1 closed, returned_append]
      rfl
    rw [(stripBack?_eq_some_iff _ _ _).2 split]
    rfl
  | none =>
    cases found : stripBack? ['*', '/'] (returned text) with
    | none => rfl
    | some body =>
      -- The closer would be there without the carriage returns as well.
      have ends := (stripBack?_eq_some_iff _ _ _).1 found
      rw [List.append_cons] at ends
      obtain ⟨front, rfl, starred⟩ := exists_of_returned_eq_append (by decide) ends
      obtain ⟨stem, rfl, -⟩ := exists_of_returned_eq_append (by decide) starred.symm
      have closer : stripBack? ['*', '/'] (stem ++ ['*'] ++ ['/']) = some stem := by
        rw [stripBack?_eq_some_iff, List.append_assoc]
        rfl
      rw [closer] at closed
      cases closed

theorem unwrap_returned (raw : List Char) :
    unwrap (returned raw) = ((unwrap raw).1, returned (unwrap raw).2) := by
  rw [unwrap, unwrap, trim_returned, afterOpener?_returned]
  cases afterOpener? (trim raw) with
  | none => rfl
  | some body => simp only [Option.map_some, beforeCloser_returned]

theorem contentLines_returned (raw : List Char) : contentLines (returned raw) = contentLines raw := by
  rw [contentLines, contentLines, unwrap_returned]
  simp only [bodyLines, filter_returned]

/-! ## The characters of a comment -/

section Characters
variable {c : Char}

theorem not_mem_contentLines (raw : List Char) : ∀ line ∈ contentLines raw, '\r' ∉ line := by
  intro line among inLine
  rw [contentLines] at among
  obtain ⟨whole, inBody, rfl⟩ := List.mem_map.1 among
  have inText := mem_of_mem_lines inBody ((Style.content_suffix _ whole).subset inLine)
  simp at inText

theorem trim_subset (text : List Char) : trim text ⊆ text := by
  have back : trimEnd (trimStart text) <+: trimStart text := List.rdropWhile_prefix isSpace _
  exact List.Subset.trans back.subset (List.dropWhile_suffix isSpace).subset

theorem not_mem_joinLines (other : c ≠ '\n') {pieces : List (List Char)}
    (absent : ∀ piece ∈ pieces, c ∉ piece) : c ∉ joinLines pieces := by
  induction pieces with
  | nil => exact List.not_mem_nil
  | cons piece rest ih =>
    obtain ⟨here, behind⟩ := List.forall_mem_cons.1 absent
    cases rest with
    | nil => exact here
    | cons next rest =>
      have joins : joinLines (piece :: next :: rest) = piece ++ '\n' :: joinLines (next :: rest) := rfl
      rw [joins, List.mem_append, List.mem_cons, not_or, not_or]
      exact ⟨here, other, ih behind⟩

theorem not_mem_joined (other : c ≠ '\n') {pieces : List (List Char)}
    (absent : ∀ piece ∈ pieces, c ∉ piece) : c ∉ (joined pieces).toList := by
  rw [joined, String.toList_ofList]
  exact fun among => not_mem_joinLines other absent (trim_subset _ among)

theorem not_mem_describe (other : c ≠ '\n') {text : List (List Char)}
    (absent : ∀ line ∈ text, c ∉ line) :
    c ∉ (describe text).1.toList ∧ c ∉ (describe text).2.toList := by
  induction text with
  | nil => exact ⟨List.not_mem_nil, List.not_mem_nil⟩
  | cons line rest ih =>
    obtain ⟨here, behind⟩ := List.forall_mem_cons.1 absent
    by_cases blank : isAllSpace line = true
    · rw [describe_cons_of_blank blank]
      exact ih behind
    · rw [describe_cons_of_visible (by simpa using blank), String.toList_ofList]
      exact ⟨fun among => here (trim_subset line among), not_mem_joined other behind⟩

/-- The sections hold no character that no line holds. -/
theorem not_mem_sections {content : List (List Char)} (absent : ∀ line ∈ content, c ∉ line) :
    (∀ line ∈ (sections content).1, c ∉ line) ∧
      ∀ tag ∈ (sections content).2, ∀ line ∈ tag.2, c ∉ line := by
  induction content with
  | nil => simp [sections]
  | cons line rest ih =>
    obtain ⟨here, behind⟩ := List.forall_mem_cons.1 absent
    obtain ⟨text, tags⟩ := ih behind
    cases opened : tagLine? line with
    | none =>
      rw [sections_cons_of_untagged opened]
      exact ⟨List.forall_mem_cons.2 ⟨here, text⟩, tags⟩
    | some tag =>
      obtain ⟨name, head⟩ := tag
      have inHead : c ∉ head := by
        obtain ⟨blanks, rfl, -⟩ := (tagLine?_eq_some_iff _ _ _).1 opened
        intro among
        apply here
        simp [among]
      rw [sections_cons_of_tagLine opened]
      refine ⟨by simp, List.forall_mem_cons.2 ⟨?_, tags⟩⟩
      exact List.forall_mem_cons.2 ⟨inHead, text⟩

theorem not_mem_values (other : c ≠ '\n') {content : List (List Char)}
    (absent : ∀ line ∈ content, c ∉ line) (name : String) :
    ∀ value ∈ (ofContentLines content).tags.values name, c ∉ value.toList := by
  intro value among
  rw [ofContentLines_eq, Tags.values_ofList, List.mem_map] at among
  obtain ⟨pair, found, rfl⟩ := among
  obtain ⟨tag, inTags, rfl⟩ := List.mem_map.1 (List.mem_filter.1 found).1
  exact not_mem_joined other ((not_mem_sections absent).2 tag inTags)

end Characters

/-- A comment reads the same with carriage returns in front of its line feeds, and what it says
has no carriage return anywhere. -/
theorem parse_returned (raw : String) :
    parse (String.ofList (returned raw.toList)) = parse raw ∧
      '\r' ∉ (parse raw).summary.toList ∧ '\r' ∉ (parse raw).detail.toList ∧
      ∀ name, ∀ value ∈ (parse raw).tags.values name, '\r' ∉ value.toList := by
  have absent := not_mem_contentLines raw.toList
  have other : '\r' ≠ '\n' := by decide
  have text := not_mem_describe other (not_mem_sections absent).1
  have read : parse raw = ofContentLines (contentLines raw.toList) := rfl
  have same : parse (String.ofList (returned raw.toList)) = parse raw := by
    rw [parse, String.toList_ofList, contentLines_returned, read]
  refine ⟨same, ?_, ?_, ?_⟩
  · simp only [read, ofContentLines_eq]
    exact text.1
  · simp only [read, ofContentLines_eq]
    exact text.2
  · rw [read]
    exact not_mem_values other absent

example :
    parse "\r/**\r\n * Quay\r * \r\n * of\rferries\r\n * @path /quay\r\n*\r/" =
      { summary := "Quay *", detail := "offerries", tags := [("path", .single "/quay\n/")] } := by
  decide

end AnnotatedApi.Comment
