import AnnotatedApi.Text.Basic

/-!
# Paths

A path is written as text and compared by its components: repeated and final
separators and single dots do not count, except that a dot at the very start
does.  Components are ordered with the root first, then the dot, then double
dots, then names by code point.
-/

set_option autoImplicit false

namespace AnnotatedApi

open Text

inductive Component where
  | root
  | here
  | parent
  | name (text : String)
deriving DecidableEq, Repr

namespace Component

def rank : Component → Nat
  | .root => 0
  | .here => 1
  | .parent => 2
  | .name _ => 3

def text : Component → String
  | .root => "/"
  | .here => "."
  | .parent => ".."
  | .name text => text

def before (first second : Component) : Bool :=
  match first, second with
  | .name a, .name b => decide (a < b)
  | a, b => decide (a.rank < b.rank)

/-- The component that a piece between two separators stands for; empty pieces
and single dots stand for none. -/
def ofPiece? (piece : List Char) : Option Component :=
  if piece = [] ∨ piece = ['.'] then none
  else if piece = ['.', '.'] then some .parent
  else some (.name (String.ofList piece))

end Component

namespace Path

def components (path : String) : List Component :=
  let chars := path.toList
  let pieces := splitAt '/' chars
  let leading :=
    if chars.head? = some '/' then [Component.root]
    else if pieces.head? = some ['.'] then [Component.here]
    else []
  leading ++ pieces.filterMap Component.ofPiece?

def componentsBefore : List Component → List Component → Bool
  | _, [] => false
  | [], _ :: _ => true
  | a :: first, b :: second =>
    if a = b then componentsBefore first second else a.before b

/-- The path of an entry of a directory; an absolute entry stands for itself. -/
def join (directory entry : String) : String :=
  if entry.toList.head? = some '/' then entry
  else if directory.isEmpty ∨ directory.toList.getLast? = some '/' then directory ++ entry
  else directory ++ "/" ++ entry

def fileName? (path : String) : Option String :=
  match (components path).getLast? with
  | some (.name text) => some text
  | _ => none

/-- What follows the last dot of the file's name, if a character stands before that dot. -/
def extension? (path : String) : Option String := do
  let name ← fileName? path
  let reversed := name.toList.reverse
  match reversed.dropWhile (· != '.') with
  | _ :: _ :: _ => some (String.ofList (reversed.takeWhile (· != '.')).reverse)
  | _ => none

def isFiller (piece : List Char) : Bool := piece.isEmpty || piece == ['.']

/-- The path without its last component, and without the separators and dots
around that; the root and the empty path have no parent. -/
def parent? (path : String) : Option String :=
  let pieces := splitAt '/' path.toList
  let isAbsolute := path.toList.head? == some '/'
  let leading := if isAbsolute || pieces.head? == some ['.'] then pieces.take 1 else []
  let body := pieces.drop leading.length
  match body.reverse.dropWhile isFiller with
  | _ :: above =>
    let kept := (above.dropWhile isFiller).reverse
    if isAbsolute then some (String.ofList ('/' :: joinWith '/' kept))
    else some (String.ofList (joinWith '/' (leading ++ kept)))
  | [] => if leading == [['.']] then some "" else none

def ancestors : Nat → String → List String
  | 0, _ => []
  | count + 1, path =>
    match parent? path with
    | some parent => path :: ancestors count parent
    | none => [path]

end Path
end AnnotatedApi
