import AnnotatedApi.Text.Basic

/-!
# Delimiters, gutters and tag lines

A comment comes as a block between delimiters, as lines that each begin with a
marker, or as bare text.  Its style decides what the gutter of a line is: the
part in front that belongs to the comment and not to its content.  A line whose
content begins with `@` and a name is a tag line.
-/

set_option autoImplicit false

namespace AnnotatedApi.Comment

open Text

inductive Style where
  | block
  | plain
deriving DecidableEq, Repr

/-- What follows the opener of a block; the longer opener is tried first. -/
def afterOpener? (text : List Char) : Option (List Char) :=
  match text with
  | '/' :: '*' :: '*' :: body => some body
  | '/' :: '*' :: body => some body
  | _ => none

/-- The text without the closer of a block; a missing closer is no fault. -/
def beforeCloser (text : List Char) : List Char := (stripBack? ['*', '/'] text).getD text

def unwrap (raw : List Char) : Style × List Char :=
  let text := trim raw
  match afterOpener? text with
  | some body => (.block, beforeCloser body)
  | none => (.plain, text)

def dropBlank : List Char → List Char
  | [] => []
  | c :: rest => if isBlank c then rest else c :: rest

/-- The line without the marker of a line that is a comment of its own. -/
def dropMarker (line : List Char) : List Char :=
  match line with
  | '/' :: '/' :: '/' :: rest => rest
  | '/' :: '/' :: '!' :: rest => rest
  | _ => line

/-- The content of a line.  In a block the gutter is indentation, a run of stars
and one blank; elsewhere it is indentation, a marker and one blank. -/
def Style.content (style : Style) (line : List Char) : List Char :=
  let unindented := line.dropWhile isBlank
  match style with
  | .block => dropBlank (unindented.dropWhile (· == '*'))
  | .plain => dropBlank (dropMarker unindented)

/-- The name of a tag line and the text after the name. -/
def tagLine? (line : List Char) : Option (List Char × List Char) :=
  match line.dropWhile isBlank with
  | '@' :: rest =>
    let name := rest.takeWhile isWordChar
    if name.isEmpty then none else some (name, rest.dropWhile isWordChar)
  | _ => none

def isTagLine (line : List Char) : Bool := (tagLine? line).isSome

def bodyLines (body : List Char) : List (List Char) := lines (body.filter (· != '\r'))

def contentLines (raw : List Char) : List (List Char) :=
  let (style, body) := unwrap raw
  (bodyLines body).map style.content

end AnnotatedApi.Comment
