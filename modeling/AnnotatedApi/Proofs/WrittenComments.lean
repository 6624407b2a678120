import AnnotatedApi.Proofs.Gutters
import AnnotatedApi.Proofs.Sections

/-!
# Reading written comments back

Whatever its layout, a comment means what its content means.  Content that was
written as a text with tags comes apart into that text and those tags again.
-/

set_option autoImplicit false

namespace AnnotatedApi.Comment

open Text

/-- The layout of a comment and the white space around it do not matter. -/
theorem parse_of_trim_eq_wrap (layout : Layout) {content : List (List Char)}
    (unbroken : ∀ line ∈ content, Unbroken line) {raw : String}
    (written : trim raw.toList = trim (layout.wrap content)) :
    parse raw = ofContentLines content := by
  rw [parse]
  by_cases marked : layout ≠ .starred
  · rcases List.eq_nil_or_concat' content with rfl | ⟨front, final, rfl⟩
    · rw [contentLines_marked_nil marked written]
    · rw [contentLines_marked marked unbroken written, ofContentLines_append_trimEnd]
  · obtain rfl : layout = .starred := not_not.1 marked
    rw [contentLines_starred unbroken written, List.cons_append, ofContentLines_cons_blank,
      sameEnding_blank.ofContentLines_append, List.append_nil]

instance (line : List Char) : Decidable (BeginsTag line) :=
  decidable_of_iff (isTagLine line = true) (isTagLine_iff line)

/-! ## Text with tags -/

/-- A tag that is written so that it is read back: its name ends where its line goes on,
and none of its further lines begins a tag. -/
structure WrittenTag.Readable (tag : WrittenTag) : Prop where
  named : tag.name ≠ []
  word : ∀ c ∈ tag.name, isWordChar c = true
  ended : ∀ c ∈ tag.head.head?, isWordChar c = false
  unbroken : ∀ line ∈ tag.head :: tag.further, Unbroken line
  untagged : ∀ line ∈ tag.further, ¬ BeginsTag line

structure Readable (text : List (List Char)) (tags : List WrittenTag) : Prop where
  unbroken : ∀ line ∈ text, Unbroken line
  untagged : ∀ line ∈ text, ¬ BeginsTag line
  tags : ∀ tag ∈ tags, tag.Readable

def ofWritten (text : List (List Char)) (tags : List WrittenTag) : Comment where
  summary := String.ofList (trim ((text.find? (!isAllSpace ·)).getD []))
  detail := joined ((text.dropWhile isAllSpace).drop 1)
  tags := Tags.ofList (tags.map fun tag => (String.ofList tag.name, joined (tag.head :: tag.further)))

theorem WrittenTag.readable_of_all {tag : WrittenTag} (named : tag.name ≠ [])
    (word : tag.name.all isWordChar = true)
    (ended : tag.head.head?.all (!isWordChar ·) = true)
    (unbroken : ∀ line ∈ tag.head :: tag.further, Unbroken line)
    (untagged : ∀ line ∈ tag.further, ¬ BeginsTag line) : tag.Readable where
  named := named
  word := List.all_eq_true.1 word
  ended := by
    intro c first
    rw [Option.mem_def.1 first, Option.all_some, Bool.not_eq_true'] at ended
    exact ended
  unbroken := unbroken
  untagged := untagged

namespace WrittenTag.Readable
variable {tag : WrittenTag} (readable : tag.Readable)
include readable

theorem tagLine?_eq : tagLine? ('@' :: (tag.name ++ tag.head)) = some (tag.name, tag.head) :=
  (tagLine?_eq_some_iff _ _ _).2
    ⟨[], rfl, by simp, readable.named, readable.word, readable.ended⟩

theorem unbroken_lines : ∀ line ∈ tag.lines, Unbroken line := by
  have name : Unbroken tag.name := by
    constructor
    · exact fun among => absurd (readable.word _ among) (by decide)
    · exact fun among => absurd (readable.word _ among) (by decide)
  have rest := List.forall_mem_cons.1 readable.unbroken
  have marked : Unbroken (['@'] ++ (tag.name ++ tag.head)) :=
    Unbroken.append (by decide) (name.append rest.1)
  exact List.forall_mem_cons.2 ⟨marked, rest.2⟩

end WrittenTag.Readable

theorem sections_flatMap_lines {tags : List WrittenTag} (readable : ∀ tag ∈ tags, tag.Readable) :
    sections (tags.flatMap WrittenTag.lines) =
      ([], tags.map fun tag => (tag.name, tag.head :: tag.further)) := by
  induction tags with
  | nil => rfl
  | cons tag tags ih =>
    obtain ⟨first, later⟩ := List.forall_mem_cons.1 readable
    have untagged : ∀ line ∈ tag.further, tagLine? line = none :=
      fun line among => (tagLine?_eq_none_iff line).2 (first.untagged line among)
    rw [List.flatMap_cons, WrittenTag.lines, List.cons_append,
      sections_cons_of_tagLine first.tagLine?_eq, sections_append_of_untagged untagged, ih later, List.append_nil]
    rfl

section Written
variable {text : List (List Char)} {tags : List WrittenTag} (readable : Readable text tags)
include readable

theorem Readable.unbroken_writtenLines : ∀ line ∈ writtenLines text tags, Unbroken line := by
  intro line among
  rcases List.mem_append.1 among with inText | inTags
  · exact readable.unbroken line inText
  · obtain ⟨tag, inList, inLines⟩ := List.mem_flatMap.1 inTags
    exact (readable.tags tag inList).unbroken_lines line inLines

theorem Readable.sections_writtenLines :
    sections (writtenLines text tags) =
      (text, tags.map fun tag => (tag.name, tag.head :: tag.further)) := by
  have untagged : ∀ line ∈ text, tagLine? line = none :=
    fun line among => (tagLine?_eq_none_iff line).2 (readable.untagged line among)
  rw [writtenLines, sections_append_of_untagged untagged, sections_flatMap_lines readable.tags,
    List.append_nil]

theorem Readable.ofContentLines_writtenLines :
    ofContentLines (writtenLines text tags) = ofWritten text tags := by
  rw [ofContentLines_eq, readable.sections_writtenLines, describe_eq, occurrences, List.map_map]
  rfl

end Written

/-- In every layout a text with tags is read back as what it says; the final line feed
and other white space around the comment make no difference. -/
theorem parse_written (layout : Layout) {text : List (List Char)} {tags : List WrittenTag}
    (readable : Readable text tags) :
    parse (String.ofList (layout.wrap (writtenLines text tags))) = ofWritten text tags ∧
      ∀ raw : String, trim raw.toList = trim (layout.wrap (writtenLines text tags)) →
        parse raw = ofWritten text tags := by
  have read : ∀ raw : String, trim raw.toList = trim (layout.wrap (writtenLines text tags)) →
      parse raw = ofWritten text tags := by
    intro raw written
    rw [parse_of_trim_eq_wrap layout readable.unbroken_writtenLines written,
      readable.ofContentLines_writtenLines]
  exact ⟨read _ (by rw [String.toList_ofList]), read⟩

def starryText : List (List Char) :=
  ["".toList, "  * Finds /// pets */ ".toList, "/** by status".toList, "//! @path /pet".toList,
    " ".toList]

def statusTags : List WrittenTag :=
  [⟨"errors".toList, " 400".toList, ["".toList, " @ no tag */ ".toList]⟩,
    ⟨"return".toList, "\tPet[]  ".toList, []⟩, ⟨"errors".toList, " 404 ".toList, []⟩]

theorem readable_starryText : Readable starryText statusTags where
  unbroken := by decide
  untagged := by decide
  tags := by
    intro tag among
    have named : ∀ tag ∈ statusTags, tag.name ≠ [] := by decide
    have word : ∀ tag ∈ statusTags, tag.name.all isWordChar = true := by decide
    have ended : ∀ tag ∈ statusTags, tag.head.head?.all (!isWordChar ·) = true := by decide
    have unbroken : ∀ tag ∈ statusTags, ∀ line ∈ tag.head :: tag.further, Unbroken line := by decide
    have untagged : ∀ tag ∈ statusTags, ∀ line ∈ tag.further, ¬ BeginsTag line := by decide
    exact WrittenTag.readable_of_all (named tag among) (word tag among) (ended tag among)
      (unbroken tag among) (untagged tag among)

theorem parse_written_starryText :
    Readable starryText statusTags ∧
      parse (String.ofList (Layout.bang.wrap (writtenLines starryText statusTags))) =
        { summary := "* Finds /// pets */"
          detail := "/** by status\n//! @path /pet"
          tags := [("errors", .multiple ["400\n\n @ no tag */", "404"]),
            ("return", .single "Pet[]")] } := by
  refine ⟨readable_starryText, ?_⟩
  rw [(parse_written .bang readable_starryText).1]
  decide

end AnnotatedApi.Comment
