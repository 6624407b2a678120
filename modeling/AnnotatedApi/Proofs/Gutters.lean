import AnnotatedApi.Comment.Basic
import AnnotatedApi.Proofs.Text

/-!
# The content of a written comment

A comment is trimmed before its gutters are removed.  A block ends in its closer, so
its content comes back whole, between the empty rests of its first and its last line.
Where every line has a marker, the end of the last line is trimmed with the text; if
nothing is left but the marker, that line is empty.
-/

set_option autoImplicit false

namespace AnnotatedApi.Comment

open Text

def Unbroken (line : List Char) : Prop := '\n' ∉ line ∧ '\r' ∉ line

instance (line : List Char) : Decidable (Unbroken line) := inferInstanceAs (Decidable (_ ∧ _))

def Layout.style : Layout → Style
  | .starred => .block
  | .slashes | .bang => .plain

def Layout.marker : Layout → List Char
  | .starred => [' ', '*']
  | .slashes => ['/', '/', '/']
  | .bang => ['/', '/', '!']

section Gutter
variable (layout : Layout)

theorem Layout.gutter_eq_marker : layout.gutter = layout.marker ++ [' '] := by
  cases layout <;> rfl

theorem Layout.unbroken_marker : Unbroken layout.marker := by
  cases layout <;> decide

theorem Layout.content_gutter (line : List Char) :
    layout.style.content (layout.gutter ++ line) = line := by
  cases layout <;> rfl

theorem Layout.content_marker : layout.style.content layout.marker = [] := by
  cases layout <;> rfl

theorem Layout.content_marker_trimEnd (line : List Char) :
    layout.style.content (layout.marker ++ trimEnd (' ' :: line)) = trimEnd line := by
  rw [← List.singleton_append, trimEnd_append]
  by_cases allSpace : isAllSpace line = true
  · rw [if_pos allSpace, (trimEnd_eq_nil_iff [' ']).2 (by decide), List.append_nil,
      layout.content_marker, (trimEnd_eq_nil_iff line).2 allSpace]
  · rw [if_neg allSpace, ← List.append_assoc, ← layout.gutter_eq_marker, layout.content_gutter]

theorem Layout.map_content_gutter (content : List (List Char)) :
    (content.map (layout.gutter ++ ·)).map layout.style.content = content := by
  rw [List.map_map]
  exact (List.map_congr_left fun line _ => layout.content_gutter line).trans (List.map_id content)

theorem Layout.written_eq (content : List (List Char)) :
    layout.written content =
      (content.map (layout.gutter ++ ·)).flatMap fun line => line ++ ['\n'] := by
  rw [List.flatMap_map]
  rfl

end Gutter

/-! ## Content is what is left at the end of a line -/

theorem dropBlank_suffix (line : List Char) : dropBlank line <:+ line := by
  cases line with
  | nil => exact List.suffix_refl []
  | cons first rest =>
    rw [dropBlank]
    split
    · exact List.suffix_cons first rest
    · exact List.suffix_refl _

theorem dropMarker_suffix (line : List Char) : dropMarker line <:+ line := by
  unfold dropMarker
  split
  · rename_i rest
    exact ⟨['/', '/', '/'], rfl⟩
  · rename_i rest
    exact ⟨['/', '/', '!'], rfl⟩
  · exact List.suffix_refl line

theorem Style.content_suffix (style : Style) (line : List Char) : style.content line <:+ line := by
  have unindented : line.dropWhile isBlank <:+ line := List.dropWhile_suffix _
  cases style with
  | block => exact ((dropBlank_suffix _).trans (List.dropWhile_suffix _)).trans unindented
  | plain => exact ((dropBlank_suffix _).trans (dropMarker_suffix _)).trans unindented

/-! ## Unbroken lines -/

theorem Unbroken.append {front back : List Char} (unbrokenFront : Unbroken front)
    (unbrokenBack : Unbroken back) : Unbroken (front ++ back) := by
  constructor
  · rw [List.mem_append, not_or]
    exact ⟨unbrokenFront.1, unbrokenBack.1⟩
  · rw [List.mem_append, not_or]
    exact ⟨unbrokenFront.2, unbrokenBack.2⟩

theorem Unbroken.trimEnd {line : List Char} (unbroken : Unbroken line) :
    Unbroken (trimEnd line) := by
  have subset : Text.trimEnd line ⊆ line := (List.rdropWhile_prefix isSpace line).subset
  exact ⟨fun among => unbroken.1 (subset among), fun among => unbroken.2 (subset among)⟩

theorem Unbroken.gutter_append {line : List Char} (unbroken : Unbroken line) (layout : Layout) :
    Unbroken (layout.gutter ++ line) := by
  rw [layout.gutter_eq_marker]
  exact (layout.unbroken_marker.append (by decide)).append unbroken

theorem bodyLines_written_append (layout : Layout) {content : List (List Char)}
    (unbroken : ∀ line ∈ content, Unbroken line) (back : List Char) (unreturned : '\r' ∉ back) :
    bodyLines (layout.written content ++ back) =
      content.map (layout.gutter ++ ·) ++ lines back := by
  have guttered : ∀ line ∈ content.map (layout.gutter ++ ·), Unbroken line := by
    intro line among
    obtain ⟨inner, inContent, rfl⟩ := List.mem_map.1 among
    exact (unbroken inner inContent).gutter_append layout
  have kept : (layout.written content ++ back).filter (· != '\r') =
      layout.written content ++ back := by
    rw [List.filter_eq_self]
    intro c among
    rw [bne_iff_ne]
    rintro rfl
    rcases List.mem_append.1 among with inContent | inBack
    · rw [layout.written_eq, List.mem_flatMap] at inContent
      obtain ⟨line, inLines, inLine⟩ := inContent
      rcases List.mem_append.1 inLine with inLine | isNewline
      · exact (guttered line inLines).2 inLine
      · exact absurd isNewline (by decide)
    · exact unreturned inBack
  rw [bodyLines, kept, layout.written_eq,
    lines_flatMap_append fun line among => (guttered line among).1]

/-! ## Blocks -/

/-- The longer opener is tried first. -/
theorem afterOpener?_eq (text : List Char) :
    afterOpener? text = (stripFront? ['/', '*', '*'] text).or (stripFront? ['/', '*'] text) := by
  unfold afterOpener?
  split
  · rfl
  · rename_i body short
    have notLong : stripFront? ['/', '*', '*'] ('/' :: '*' :: body) = none := by
      apply (stripFront?_eq_none_iff _ _).2
      intro rest long
      simp only [List.cons_append, List.nil_append, List.cons.injEq, true_and] at long
      exact short rest long
    rw [notLong]
    rfl
  · rename_i long short
    rw [(stripFront?_eq_none_iff _ _).2 long, (stripFront?_eq_none_iff _ _).2 short]
    rfl

theorem unwrap_closed {raw body : List Char}
    (delimited : trim raw = '/' :: '*' :: '*' :: (body ++ ['*', '/'])) :
    unwrap raw = (.block, body) := by
  have closed : stripBack? ['*', '/'] (body ++ ['*', '/']) = some body :=
    (stripBack?_eq_some_iff _ _ _).2 rfl
  rw [unwrap, delimited]
  simp only [afterOpener?, beforeCloser, closed, Option.getD_some]

theorem contentLines_starred {raw : List Char} {content : List (List Char)}
    (unbroken : ∀ line ∈ content, Unbroken line)
    (written : trim raw = trim (Layout.starred.wrap content)) :
    contentLines raw = [] :: content ++ [[]] := by
  have whole : Layout.starred.wrap content =
      '/' :: (['*', '*', '\n'] ++ Layout.starred.written content ++ [' ', '*'] ++ ['/']) := by
    simp [Layout.wrap]
  have delimited : trim raw =
      '/' :: '*' :: '*' :: (('\n' :: (Layout.starred.written content ++ [' '])) ++ ['*', '/']) := by
    rw [written, whole, trim_of_visible_ends (by decide) (by decide)]
    simp
  have body : bodyLines ('\n' :: (Layout.starred.written content ++ [' '])) =
      [] :: (content.map (Layout.starred.gutter ++ ·) ++ [[' ']]) := by
    have inner := bodyLines_written_append .starred unbroken [' '] (by decide)
    rw [bodyLines] at inner ⊢
    rw [List.filter_cons_of_pos (by decide), lines_cons_newline, inner]
    rfl
  have contents := Layout.map_content_gutter .starred content
  rw [Layout.style] at contents
  rw [contentLines, unwrap_closed delimited]
  simp only [body, List.map_cons, List.map_append, List.map_nil, contents]
  rfl

/-! ## Marked lines -/

section Marked
variable {layout : Layout} (marked : layout ≠ .starred)
include marked

theorem Layout.wrap_marked (content : List (List Char)) :
    layout.wrap content = layout.written content := by
  cases layout with
  | starred => exact absurd rfl marked
  | slashes => rfl
  | bang => rfl

theorem Layout.style_marked : layout.style = .plain := by
  cases layout with
  | starred => exact absurd rfl marked
  | slashes => rfl
  | bang => rfl

/-- A marker begins with two slashes and ends in a character that is no white space. -/
theorem Layout.exists_marker_eq :
    ∃ final, layout.marker = ['/', '/', final] ∧ isSpace final = false := by
  cases layout with
  | starred => exact absurd rfl marked
  | slashes => exact ⟨'/', rfl, by decide⟩
  | bang => exact ⟨'!', rfl, by decide⟩

theorem Layout.exists_written_append_marker (content : List (List Char)) (back : List Char) :
    ∃ rest, layout.written content ++ (layout.marker ++ back) = '/' :: '/' :: rest := by
  obtain ⟨final, marker, -⟩ := Layout.exists_marker_eq marked
  cases content with
  | nil => exact ⟨final :: back, by rw [marker]; rfl⟩
  | cons line content =>
    refine ⟨final :: ' ' :: (line ++ '\n' :: layout.written content ++ (layout.marker ++ back)), ?_⟩
    simp [Layout.written, layout.gutter_eq_marker, marker]

theorem trim_written_marked (front : List (List Char)) (final : List Char) :
    trim (layout.written (front ++ [final])) =
      layout.written front ++ (layout.marker ++ trimEnd (' ' :: final)) := by
  obtain ⟨last, marker, visible⟩ := Layout.exists_marker_eq marked
  have split : layout.written (front ++ [final]) =
      layout.written front ++ (layout.marker ++ (' ' :: final ++ ['\n'])) := by
    simp [Layout.written, layout.gutter_eq_marker]
  obtain ⟨rest, slashes⟩ := Layout.exists_written_append_marker marked front (' ' :: final ++ ['\n'])
  have started : trim (layout.written (front ++ [final])) =
      trimEnd (layout.written (front ++ [final])) := by
    rw [split, slashes, trim, trimStart_of_not_space (by decide)]
  have cut : layout.written front ++ (layout.marker ++ (' ' :: final ++ ['\n'])) =
      (layout.written front ++ ['/', '/']) ++ last :: (' ' :: final ++ ['\n']) := by
    simp [marker]
  have ended : trimEnd (' ' :: final ++ ['\n']) = trimEnd (' ' :: final) := by
    rw [trimEnd_append, if_pos (by decide)]
  rw [started, split, cut, trimEnd_append_cons_of_not_space _ _ visible, ended, marker]
  simp

theorem unwrap_marked {raw : List Char} {front : List (List Char)} {back : List Char}
    (trimmed : trim raw = layout.written front ++ (layout.marker ++ back)) :
    unwrap raw = (.plain, layout.written front ++ (layout.marker ++ back)) := by
  obtain ⟨rest, slashes⟩ := Layout.exists_written_append_marker marked front back
  rw [unwrap, trimmed, slashes]
  rfl

theorem contentLines_marked {raw : List Char} {front : List (List Char)} {final : List Char}
    (unbroken : ∀ line ∈ front ++ [final], Unbroken line)
    (written : trim raw = trim (layout.wrap (front ++ [final]))) :
    contentLines raw = front ++ [trimEnd final] := by
  have trimmed : trim raw = layout.written front ++ (layout.marker ++ trimEnd (' ' :: final)) := by
    rw [written, Layout.wrap_marked marked, trim_written_marked marked]
  have unbrokenLast : Unbroken (layout.marker ++ trimEnd (' ' :: final)) := by
    have inner : Unbroken ([' '] ++ final) :=
      Unbroken.append (by decide) (unbroken final (by simp))
    exact layout.unbroken_marker.append inner.trimEnd
  -- Trimming leaves the marker, so the last line is still a line.
  have nonempty : layout.marker ++ trimEnd (' ' :: final) ≠ [] := by
    obtain ⟨last, marker, -⟩ := Layout.exists_marker_eq marked
    simp [marker]
  have body : bodyLines (layout.written front ++ (layout.marker ++ trimEnd (' ' :: final))) =
      front.map (layout.gutter ++ ·) ++ [layout.marker ++ trimEnd (' ' :: final)] := by
    rw [bodyLines_written_append layout
      (fun line among => unbroken line (List.mem_append_left [final] among)) _ unbrokenLast.2,
      lines_of_unbroken nonempty unbrokenLast.1]
  rw [contentLines, unwrap_marked marked trimmed]
  simp only [body]
  rw [List.map_append, ← Layout.style_marked marked, layout.map_content_gutter, List.map_singleton,
    layout.content_marker_trimEnd]

theorem contentLines_marked_nil {raw : List Char} (written : trim raw = trim (layout.wrap [])) :
    contentLines raw = [] := by
  have empty : trim raw = [] := by
    rw [written, Layout.wrap_marked marked]
    rfl
  rw [contentLines, unwrap, empty]
  rfl

end Marked
end AnnotatedApi.Comment
