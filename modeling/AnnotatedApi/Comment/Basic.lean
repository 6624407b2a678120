import AnnotatedApi.Comment.Gutter
import AnnotatedApi.Comment.Tags

/-!
# Comments

A comment is free text followed by tags.  The first line of the text that is
not blank is its summary, the rest its detail.  A tag runs from its tag line to
the next one, so a value may span several lines.

The same content can be written in three ways: as a block whose lines have a
star in front, or as lines that each begin with one of two markers.
-/

set_option autoImplicit false

namespace AnnotatedApi

structure Comment where
  summary : String
  detail : String
  tags : Tags
deriving DecidableEq, Repr

namespace Comment

open Text

/-- The lines before the first tag line, and for every tag its name and its
lines, the first of them the rest of the tag line. -/
def sections : List (List Char) → List (List Char) × List (List Char × List (List Char))
  | [] => ([], [])
  | line :: rest =>
    let (text, tagged) := sections rest
    match tagLine? line with
    | some (name, head) => ([], (name, head :: text) :: tagged)
    | none => (line :: text, tagged)

def joined (pieces : List (List Char)) : String := String.ofList (trim (joinLines pieces))

def describe (text : List (List Char)) : String × String :=
  match text.dropWhile isAllSpace with
  | [] => ("", "")
  | line :: rest => (String.ofList (trim line), joined rest)

def occurrences (tagged : List (List Char × List (List Char))) : List (String × String) :=
  tagged.map fun pair => (String.ofList pair.1, joined pair.2)

def ofContentLines (content : List (List Char)) : Comment :=
  let (text, tagged) := sections content
  let (summary, detail) := describe text
  { summary, detail, tags := Tags.ofList (occurrences tagged) }

/-- Every text is a comment; tags that nobody knows are kept. -/
def parse (raw : String) : Comment := ofContentLines (contentLines raw.toList)

/-! ## Writing -/

inductive Layout where
  | starred
  | slashes
  | bang
deriving DecidableEq, Repr

def Layout.gutter : Layout → List Char
  | .starred => [' ', '*', ' ']
  | .slashes => ['/', '/', '/', ' ']
  | .bang => ['/', '/', '!', ' ']

def Layout.written (layout : Layout) (content : List (List Char)) : List Char :=
  content.flatMap fun line => layout.gutter ++ line ++ ['\n']

def Layout.wrap (layout : Layout) (content : List (List Char)) : List Char :=
  match layout with
  | .starred => ['/', '*', '*', '\n'] ++ layout.written content ++ [' ', '*', '/']
  | .slashes | .bang => layout.written content

/-- A tag as it is written: its name, the rest of its line, and further lines. -/
structure WrittenTag where
  name : List Char
  head : List Char
  further : List (List Char)

def WrittenTag.lines (tag : WrittenTag) : List (List Char) :=
  ('@' :: (tag.name ++ tag.head)) :: tag.further

def writtenLines (text : List (List Char)) (tags : List WrittenTag) : List (List Char) :=
  text ++ tags.flatMap WrittenTag.lines

end Comment
end AnnotatedApi
