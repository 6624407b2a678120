import AnnotatedApi.Proofs.Gutters
import AnnotatedApi.Proofs.Sections

/-!
# The openers of a block

A block opens with a slash and one star or with a slash and two.  Where its body begins
with a star as well, the short opener and that star are the long opener.  The star is gone
from the content then, which makes no difference, since it would belong to the gutter,
unless blanks and more stars behind it would be content otherwise.
-/

set_option autoImplicit false

namespace AnnotatedApi.Comment

open Text

def IndentedStar (line : List Char) : Prop :=
  ∃ blanks behind, line = blanks ++ '*' :: behind ∧ blanks ≠ [] ∧ ∀ c ∈ blanks, c = ' ' ∨ c = '\t'

/-- The text begins with a star, and behind it, carriage returns aside, are blanks and
another star. -/
def ReopensGutter (body : List Char) : Prop :=
  ∃ rest, body = '*' :: rest ∧ IndentedStar (rest.filter (· != '\r'))

/-! ## The lines of a block -/

section Block
variable (body : List Char)

theorem trim_slashes (inner : List Char) : trim ('/' :: (inner ++ ['/'])) = '/' :: (inner ++ ['/']) :=
  trim_of_visible_ends (by decide) (by decide) inner

theorem contentLines_long :
    contentLines (['/', '*', '*'] ++ body ++ ['*', '/']) = (bodyLines body).map Style.block.content := by
  have delimited : trim (['/', '*', '*'] ++ body ++ ['*', '/']) =
      '/' :: '*' :: '*' :: (body ++ ['*', '/']) := by
    have whole := trim_slashes (['*', '*'] ++ body ++ ['*'])
    simpa using whole
  rw [contentLines, unwrap_closed delimited]

theorem contentLines_short {first : Char} (plain : first ≠ '*') :
    contentLines (['/', '*'] ++ first :: body ++ ['*', '/']) =
      (bodyLines (first :: body)).map Style.block.content := by
  have trimmed : trim (['/', '*'] ++ first :: body ++ ['*', '/']) =
      ['/', '*'] ++ (first :: body ++ ['*', '/']) := by
    have whole := trim_slashes (['*', first] ++ body ++ ['*'])
    simpa using whole
  have opened : afterOpener? (['/', '*'] ++ (first :: body ++ ['*', '/'])) =
      some (first :: body ++ ['*', '/']) := by
    have notLong : stripFront? ['/', '*', '*'] (['/', '*'] ++ (first :: body ++ ['*', '/'])) = none := by
      apply (stripFront?_eq_none_iff _ _).2
      intro rest long
      simp only [List.cons_append, List.nil_append, List.cons.injEq, true_and] at long
      exact plain long.1
    rw [afterOpener?_eq, notLong, (stripFront?_eq_some_iff _ _ _).2 rfl]
    rfl
  have closed : beforeCloser (first :: body ++ ['*', '/']) = first :: body := by
    rw [beforeCloser, (stripBack?_eq_some_iff _ _ _).2 rfl]
    rfl
  have unwrapped : unwrap (['/', '*'] ++ first :: body ++ ['*', '/']) = (.block, first :: body) := by
    rw [unwrap, trimmed, opened]
    simp only [closed]
  rw [contentLines, unwrapped]

/-- With a star in front of the body the short opener is the long one. -/
theorem contentLines_short_star :
    contentLines (['/', '*'] ++ '*' :: body ++ ['*', '/']) =
      (bodyLines body).map Style.block.content := by
  rw [← contentLines_long]
  rfl

end Block

/-! ## The first line -/

theorem lines_cons_eq (c : Char) (other : c ≠ '\n') (rest : List Char) :
    lines (c :: rest) = (c :: (lines rest).headD []) :: (lines rest).tail := by
  rw [lines, if_neg other]
  cases lines rest <;> rfl

theorem headD_lines (text : List Char) : (lines text).headD [] = text.takeWhile (· != '\n') := by
  induction text with
  | nil => rfl
  | cons c rest ih =>
    by_cases newline : c = '\n'
    · subst newline
      rw [lines_cons_newline, List.takeWhile_cons_of_neg (by decide)]
      rfl
    · rw [lines_cons_eq c newline, List.takeWhile_cons_of_pos (by simpa using newline), ← ih]
      rfl

/-- A text without lines says as much as one empty line. -/
theorem ofContentLines_map_lines (text : List Char) :
    ofContentLines ((lines text).map Style.block.content) =
      ofContentLines (Style.block.content ((lines text).headD []) ::
        (lines text).tail.map Style.block.content) := by
  cases lines text with
  | nil => exact (ofContentLines_cons_blank []).symm
  | cons first rest => rfl

theorem indentedStar_iff (line : List Char) :
    IndentedStar line ↔
      line.head?.any isBlank = true ∧ (line.dropWhile isBlank).head? = some '*' := by
  constructor
  · rintro ⟨blanks, behind, rfl, indented, blank⟩
    obtain ⟨c, blanks, rfl⟩ := List.exists_cons_of_ne_nil indented
    have allBlank : ∀ d ∈ c :: blanks, isBlank d = true :=
      fun d among => (isBlank_iff d).2 (blank d among)
    rw [List.dropWhile_append_of_pos allBlank, List.dropWhile_cons_of_neg (by decide)]
    exact ⟨allBlank c List.mem_cons_self, rfl⟩
  · rintro ⟨indented, star⟩
    obtain ⟨behind, visible⟩ := List.head?_eq_some_iff.1 star
    refine ⟨line.takeWhile isBlank, behind, ?_, ?_, ?_⟩
    · rw [← visible, List.takeWhile_append_dropWhile]
    · cases line with
      | nil => cases indented
      | cons c rest =>
        have first : isBlank c = true := indented
        rw [List.takeWhile_cons_of_pos first]
        exact List.cons_ne_nil _ _
    · exact fun c among => (isBlank_iff c).1 (List.mem_takeWhile_imp among)

theorem indentedStar_takeWhile_iff (text : List Char) :
    IndentedStar (text.takeWhile (· != '\n')) ↔ IndentedStar text := by
  constructor
  · rintro ⟨blanks, behind, split, indented, blank⟩
    refine ⟨blanks, behind ++ text.dropWhile (· != '\n'), ?_, indented, blank⟩
    rw [← List.cons_append, ← List.append_assoc, ← split, List.takeWhile_append_dropWhile]
  · rintro ⟨blanks, behind, rfl, indented, blank⟩
    have sameLine : ∀ c ∈ blanks, (c != '\n') = true := by
      intro c among
      rcases blank c among with rfl | rfl <;> decide
    refine ⟨blanks, behind.takeWhile (· != '\n'), ?_, indented, blank⟩
    rw [List.takeWhile_append_of_pos sameLine, List.takeWhile_cons_of_pos (by decide)]

/-! ## Indentation that makes no difference -/

theorem tagLine?_append_of_blank {blanks : List Char} (blank : ∀ c ∈ blanks, isBlank c = true)
    (line : List Char) : tagLine? (blanks ++ line) = tagLine? line := by
  rw [tagLine?, tagLine?, List.dropWhile_append_of_pos blank]

theorem describe_cons_append_of_blank {blanks : List Char} (blank : ∀ c ∈ blanks, isBlank c = true)
    (line : List Char) (rest : List (List Char)) :
    describe ((blanks ++ line) :: rest) = describe (line :: rest) := by
  have spaces : isAllSpace blanks = true :=
    List.all_eq_true.2 fun c among => isSpace_of_isBlank (blank c among)
  have sameSpace : isAllSpace (blanks ++ line) = isAllSpace line := by
    rw [isAllSpace, List.all_append, ← isAllSpace, spaces, Bool.true_and, isAllSpace]
  by_cases allSpace : isAllSpace line = true
  · rw [describe_cons_of_blank allSpace, describe_cons_of_blank (sameSpace.trans allSpace)]
  · rw [Bool.not_eq_true] at allSpace
    rw [describe_cons_of_visible allSpace, describe_cons_of_visible (sameSpace.trans allSpace),
      trim, trimStart_append_of_allSpace spaces, ← trim]

/-- The first line of a comment may be indented. -/
theorem ofContentLines_cons_append_of_blank {blanks : List Char}
    (blank : ∀ c ∈ blanks, isBlank c = true) (line : List Char) (rest : List (List Char)) :
    ofContentLines ((blanks ++ line) :: rest) = ofContentLines (line :: rest) := by
  have sameTag := tagLine?_append_of_blank blank line
  cases opened : tagLine? line with
  | none =>
    rw [ofContentLines_eq, ofContentLines_eq, sections_cons_of_untagged (sameTag.trans opened),
      sections_cons_of_untagged opened]
    simp only [describe_cons_append_of_blank blank]
  | some tag =>
    rw [ofContentLines_eq, ofContentLines_eq, sections_cons_of_tagLine (sameTag.trans opened),
      sections_cons_of_tagLine opened]

/-! ## Visible characters -/

def visibleCount (text : List Char) : Nat := text.countP (!isSpace ·)

theorem visibleCount_append (front back : List Char) :
    visibleCount (front ++ back) = visibleCount front + visibleCount back := List.countP_append

theorem visibleCount_eq_zero {text : List Char} (allSpace : isAllSpace text = true) :
    visibleCount text = 0 := by
  apply List.countP_eq_zero.2
  intro c among
  simpa using List.all_eq_true.1 allSpace c among

theorem visibleCount_trim (text : List Char) : visibleCount (trim text) = visibleCount text := by
  have front : visibleCount (trimStart text) = visibleCount text := by
    have split := visibleCount_append (text.takeWhile isSpace) (text.dropWhile isSpace)
    have spaces : isAllSpace (text.takeWhile isSpace) = true :=
      List.all_eq_true.2 fun c among => List.mem_takeWhile_imp among
    rw [List.takeWhile_append_dropWhile, visibleCount_eq_zero spaces, Nat.zero_add] at split
    exact split.symm
  have back : visibleCount (trimEnd (trimStart text)) = visibleCount (trimStart text) := by
    have split := visibleCount_append (trimEnd (trimStart text)) ((trimStart text).rtakeWhile isSpace)
    have spaces : isAllSpace ((trimStart text).rtakeWhile isSpace) = true :=
      List.all_eq_true.2 fun c among => List.mem_rtakeWhile_imp among
    rw [trimEnd_eq_rdropWhile, List.rdropWhile_append_rtakeWhile, visibleCount_eq_zero spaces] at split
    exact split.symm
  rw [trim, back, front]

theorem visibleCount_cons_flatten (line : List Char) (rest : List (List Char)) :
    visibleCount (line :: rest).flatten = visibleCount line + visibleCount rest.flatten := by
  rw [List.flatten_cons, visibleCount_append]

theorem visibleCount_joinLines (pieces : List (List Char)) :
    visibleCount (joinLines pieces) = visibleCount pieces.flatten := by
  induction pieces with
  | nil => rfl
  | cons piece rest ih =>
    cases rest with
    | nil => simp [joinLines, joinWith]
    | cons next rest =>
      have joins : joinLines (piece :: next :: rest) =
          piece ++ (['\n'] ++ joinLines (next :: rest)) := rfl
      have feed : visibleCount ['\n'] = 0 := by decide
      rw [joins, visibleCount_append, visibleCount_append, ih, feed, Nat.zero_add,
        ← visibleCount_cons_flatten]

theorem visibleCount_joined (pieces : List (List Char)) :
    visibleCount (joined pieces).toList = visibleCount pieces.flatten := by
  rw [joined, String.toList_ofList, visibleCount_trim, visibleCount_joinLines]

/-- The summary and the detail keep all that is visible in the lines of the text. -/
theorem visibleCount_describe (text : List (List Char)) :
    visibleCount (describe text).1.toList + visibleCount (describe text).2.toList =
      visibleCount text.flatten := by
  induction text with
  | nil => rfl
  | cons line rest ih =>
    rw [visibleCount_cons_flatten]
    by_cases blank : isAllSpace line = true
    · rw [describe_cons_of_blank blank, ih, visibleCount_eq_zero blank, Nat.zero_add]
    · rw [describe_cons_of_visible (by simpa using blank), String.toList_ofList, visibleCount_trim,
        visibleCount_joined]

theorem visibleCount_ofContentLines (content : List (List Char)) :
    visibleCount (ofContentLines content).summary.toList +
        visibleCount (ofContentLines content).detail.toList =
      visibleCount (sections content).1.flatten := by
  simp only [ofContentLines_eq, visibleCount_describe]

theorem visibleCount_sections_cons_le (line : List Char) (rest : List (List Char)) :
    visibleCount (sections (line :: rest)).1.flatten ≤
      visibleCount line + visibleCount (sections rest).1.flatten := by
  cases opened : tagLine? line with
  | none =>
    rw [sections_cons_of_untagged opened, visibleCount_cons_flatten]
  | some tag =>
    rw [sections_cons_of_tagLine opened]
    exact Nat.zero_le _

/-! ## A star in front of the first line -/

section FirstLine
variable {line : List Char}

theorem content_star (line : List Char) :
    Style.block.content ('*' :: line) = dropBlank (line.dropWhile (· == '*')) := rfl

/-- The star and one blank are the whole gutter. -/
theorem content_star_cons_of_blank {c : Char} (blank : isBlank c = true) (rest : List Char) :
    Style.block.content ('*' :: c :: rest) = rest := by
  have notStar : (c == '*') = false := by
    rw [beq_eq_false_iff_ne]
    rintro rfl
    exact absurd blank (by decide)
  rw [content_star, List.dropWhile_cons_of_neg (by simp [notStar]), dropBlank, if_pos blank]

/-- Without a star behind the indentation there is no other gutter. -/
theorem content_of_not_star (plain : (line.dropWhile isBlank).head? ≠ some '*') :
    Style.block.content line = line.dropWhile isBlank := by
  have stop := not_head_dropWhile isBlank line
  rw [Style.content]
  cases visible : line.dropWhile isBlank with
  | nil => rfl
  | cons first rest =>
    rw [visible] at stop plain
    have other : first ≠ '*' := by
      intro same
      apply plain
      rw [same]
      rfl
    have notBlank : isBlank first = false := stop first rfl
    rw [List.dropWhile_cons_of_neg (by simpa using other)]
    simp [dropBlank, notBlank]

theorem ofContentLines_content_star (plain : ¬ IndentedStar line) (rest : List (List Char)) :
    ofContentLines (Style.block.content ('*' :: line) :: rest) =
      ofContentLines (Style.block.content line :: rest) := by
  cases line with
  | nil => rfl
  | cons c behind =>
    by_cases blank : isBlank c = true
    · have dropped : (c :: behind).dropWhile isBlank = behind.dropWhile isBlank :=
        List.dropWhile_cons_of_pos blank
      have notStar : ((c :: behind).dropWhile isBlank).head? ≠ some '*' := by
        intro star
        apply plain
        rw [indentedStar_iff]
        exact ⟨blank, star⟩
      -- What is left differs in blanks in front of the first line only.
      have split : behind.takeWhile isBlank ++ behind.dropWhile isBlank = behind :=
        List.takeWhile_append_dropWhile
      rw [content_star_cons_of_blank blank, content_of_not_star notStar, dropped]
      nth_rewrite 1 [← split]
      exact ofContentLines_cons_append_of_blank (fun c among => List.mem_takeWhile_imp among) _ rest
    · have same : Style.block.content (c :: behind) = Style.block.content ('*' :: c :: behind) := by
        rw [content_star, Style.content, List.dropWhile_cons_of_neg blank]
      rw [same]

/-- With the star in front more is visible: the second star, which the gutter would take. -/
theorem ofContentLines_content_star_ne (indented : IndentedStar line) (rest : List (List Char)) :
    ofContentLines (Style.block.content ('*' :: line) :: rest) ≠
      ofContentLines (Style.block.content line :: rest) := by
  obtain ⟨blanks, behind, rfl, nonempty, blank⟩ := indented
  obtain ⟨c, blanks, rfl⟩ := List.exists_cons_of_ne_nil nonempty
  have allBlank : ∀ d ∈ c :: blanks, isBlank d = true :=
    fun d among => (isBlank_iff d).2 (blank d among)
  obtain ⟨firstBlank, laterBlank⟩ := List.forall_mem_cons.1 allBlank
  have untagged : tagLine? (blanks ++ '*' :: behind) = none := by
    rw [tagLine?_append_of_blank laterBlank]
    rfl
  have without : visibleCount (Style.block.content (c :: blanks ++ '*' :: behind)) ≤
      visibleCount behind := by
    rw [Style.content, List.dropWhile_append_of_pos allBlank]
    have kept : dropBlank (behind.dropWhile (· == '*')) <:+ behind :=
      (dropBlank_suffix _).trans (List.dropWhile_suffix _)
    exact kept.sublist.countP_le
  have star : visibleCount ('*' :: behind) = 1 + visibleCount behind := by
    rw [← List.singleton_append, visibleCount_append]
    rfl
  intro same
  have counts := congrArg (fun comment =>
    visibleCount comment.summary.toList + visibleCount comment.detail.toList) same
  simp only [visibleCount_ofContentLines] at counts
  have atMost := visibleCount_sections_cons_le
    (Style.block.content (c :: blanks ++ '*' :: behind)) rest
  rw [List.cons_append, content_star_cons_of_blank firstBlank, sections_cons_of_untagged untagged,
    visibleCount_cons_flatten, visibleCount_append, star, ← List.cons_append] at counts
  omega

end FirstLine

/-! ## White space -/

theorem tagLine?_of_blank {line : List Char} (blank : isAllSpace line = true) : tagLine? line = none := by
  rw [tagLine?_eq_none_iff]
  rintro ⟨blanks, first, rest, rfl, -, -⟩
  have space := List.all_eq_true.1 blank '@' (by simp)
  exact absurd space (by decide)

theorem ofContentLines_of_blank {content : List (List Char)}
    (blank : ∀ line ∈ content, isAllSpace line = true) :
    ofContentLines content = ⟨"", "", []⟩ := by
  induction content with
  | nil => rfl
  | cons line rest ih =>
    obtain ⟨here, behind⟩ := List.forall_mem_cons.1 blank
    rw [← ih behind, ofContentLines_eq, ofContentLines_eq,
      sections_cons_of_untagged (tagLine?_of_blank here), describe_cons_of_blank here]

theorem isAllSpace_content_of_mem {body : List Char} (blank : isAllSpace body = true) :
    ∀ line ∈ (bodyLines body).map Style.block.content, isAllSpace line = true := by
  intro line among
  obtain ⟨whole, inBody, rfl⟩ := List.mem_map.1 among
  apply List.all_eq_true.2
  intro c inLine
  have inText := mem_of_mem_lines inBody ((Style.content_suffix .block whole).subset inLine)
  exact List.all_eq_true.1 blank c (List.mem_filter.1 inText).1

/-! ## Both openers -/

theorem reopensGutter_cons_iff (first : Char) (rest : List Char) :
    ReopensGutter (first :: rest) ↔ first = '*' ∧ IndentedStar (rest.filter (· != '\r')) := by
  constructor
  · rintro ⟨behind, split, indented⟩
    obtain ⟨rfl, rfl⟩ := List.cons.inj split
    exact ⟨rfl, indented⟩
  · rintro ⟨rfl, indented⟩
    exact ⟨rest, rfl, indented⟩

theorem ofContentLines_openers_iff {body : List Char} (nonempty : body ≠ []) :
    ofContentLines (contentLines (['/', '*'] ++ body ++ ['*', '/'])) =
        ofContentLines (contentLines (['/', '*', '*'] ++ body ++ ['*', '/'])) ↔
      ¬ ReopensGutter body := by
  obtain ⟨first, rest, rfl⟩ := List.exists_cons_of_ne_nil nonempty
  rw [reopensGutter_cons_iff, contentLines_long]
  by_cases star : first = '*'
  · subst star
    have kept : bodyLines ('*' :: rest) = lines ('*' :: rest.filter (· != '\r')) := by
      rw [bodyLines, List.filter_cons_of_pos (by decide)]
    rw [contentLines_short_star, kept, lines_cons_eq '*' (by decide), bodyLines,
      ofContentLines_map_lines, List.map_cons, headD_lines,
      ← indentedStar_takeWhile_iff (rest.filter (· != '\r'))]
    constructor
    · rintro same ⟨-, indented⟩
      exact ofContentLines_content_star_ne indented _ same.symm
    · intro plain
      exact (ofContentLines_content_star (fun indented => plain ⟨rfl, indented⟩) _).symm
  · rw [contentLines_short rest star]
    exact iff_of_true rfl fun reopens => star reopens.1

/-- Around a body that is not empty the two openers of a block mean the same, unless the body
begins with a star, blanks and another star.  A closed block of white space says nothing. -/
theorem parse_block_openers (body : String) :
    (body ≠ "" →
      (parse ("/*" ++ body ++ "*/") = parse ("/**" ++ body ++ "*/") ↔
        ¬ ReopensGutter body.toList)) ∧
      (isAllSpace body.toList = true →
        parse ("/**" ++ body ++ "*/") = ⟨"", "", []⟩) := by
  have short : parse ("/*" ++ body ++ "*/") =
      ofContentLines (contentLines (['/', '*'] ++ body.toList ++ ['*', '/'])) := by
    rw [parse, String.toList_append, String.toList_append]
    rfl
  have long : parse ("/**" ++ body ++ "*/") =
      ofContentLines (contentLines (['/', '*', '*'] ++ body.toList ++ ['*', '/'])) := by
    rw [parse, String.toList_append, String.toList_append]
    rfl
  rw [short, long]
  constructor
  · intro nonempty
    apply ofContentLines_openers_iff
    intro empty
    exact nonempty (String.toList_eq_nil_iff.1 empty)
  · intro blank
    rw [contentLines_long]
    exact ofContentLines_of_blank (isAllSpace_content_of_mem blank)

instance (line : List Char) : Decidable (IndentedStar line) :=
  decidable_of_iff _ (indentedStar_iff line).symm

theorem parse_block_openers_quay :
    ("*\t@path /quay\r\n** * of ferries" ≠ "" ∧
      ¬ ReopensGutter "*\t@path /quay\r\n** * of ferries".toList ∧
      parse ("/*" ++ "*\t@path /quay\r\n** * of ferries" ++ "*/") =
        parse ("/**" ++ "*\t@path /quay\r\n** * of ferries" ++ "*/")) ∧
      isAllSpace "".toList = true ∧
      parse ("/**" ++ "" ++ "*/") = ⟨"", "", []⟩ := by
  have plain : ¬ ReopensGutter "*\t@path /quay\r\n** * of ferries".toList := by
    intro reopens
    obtain ⟨rest, split, indented⟩ := reopens
    have same : "\t@path /quay\r\n** * of ferries".toList = rest := (List.cons.inj split).2
    subst same
    exact absurd indented (by decide)
  have nonempty : "*\t@path /quay\r\n** * of ferries" ≠ "" := by decide
  exact ⟨⟨nonempty, plain, ((parse_block_openers _).1 nonempty).2 plain⟩, rfl,
    (parse_block_openers "").2 rfl⟩

/-- The text that is built with the short opener has the long one, and the gutter behind it
takes the second star. -/
theorem openers_differ_on_stars :
    parse ("/*" ++ "* * x" ++ "*/") ≠ parse ("/**" ++ "* * x" ++ "*/") := by
  decide

end AnnotatedApi.Comment
