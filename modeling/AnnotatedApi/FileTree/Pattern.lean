import AnnotatedApi.FileTree.Basic
import AnnotatedApi.FileTree.Path

/-!
# Patterns of paths

A pattern is a path whose pieces may have wildcards: a question mark for one
character, a star for any characters, brackets for one character of a class,
and a piece of two stars for any number of directories.  Names are compared
with regard to case, and a wildcard also matches a dot in front.
-/

set_option autoImplicit false

namespace AnnotatedApi

open Text

/-- Why a text is not a pattern; each has the position of the fault. -/
inductive PatternError where
  /-- More than two stars. -/
  | wildcards (position : Nat)
  /-- Two stars that are not a piece of their own. -/
  | recursion (position : Nat)
  /-- A bracket that opens no class. -/
  | range (position : Nat)
deriving DecidableEq, Repr

def PatternError.message (cause : PatternError) : String :=
  let near := fun (position : Nat) (reason : String) =>
    "Pattern syntax error near position " ++ toString position ++ ": " ++ reason
  match cause with
  | .wildcards position =>
    near position "wildcards are either regular `*` or recursive `**`"
  | .recursion position => near position "recursive wildcards must form a single path component"
  | .range position => near position "invalid range pattern"

namespace Pattern

inductive Member where
  | one (c : Char)
  | span (first last : Char)
deriving DecidableEq, Repr

inductive Wildcard where
  | char (c : Char)
  | anyChar
  | anyChars
  | anyDirectories
  | within (members : List Member)
  | except (members : List Member)
deriving DecidableEq, Repr

def Member.holds (member : Member) (c : Char) : Bool :=
  match member with
  | .one other => c == other
  | .span first last => first ≤ c && c ≤ last

def members : List Char → List Member
  | a :: '-' :: b :: rest => .span a b :: members rest
  | a :: rest => .one a :: members rest
  | [] => []

/-- A class from the character after its opening bracket on, and what follows it.
The first character of a class may be a closing bracket. -/
def readClass (text : List Char) : Option (Wildcard × List Char) :=
  match text with
  | '!' :: first :: rest =>
    match rest.dropWhile (· != ']') with
    | _ :: after => some (.except (members (first :: rest.takeWhile (· != ']'))), after)
    | [] => none
  | first :: rest =>
    if first = '!' then none
    else match rest.dropWhile (· != ']') with
      | _ :: after => some (.within (members (first :: rest.takeWhile (· != ']'))), after)
      | [] => none
  | [] => none

def readStars (start : Nat) (previous : Option Char) (rest : List Char) :
    Except PatternError (List Char) :=
  if previous.all (· == '/') then
    match rest with
    | [] => .ok []
    | '/' :: rest => .ok rest
    | _ => .error (.recursion (start + 2))
  else .error (.recursion (start - 1))

/-- Reads the wildcards of a text.  `total` is the length of the whole text, from
which positions are counted, and `previous` the character before this part. -/
def read (total : Nat) : Nat → Option Char → List Char → Except PatternError (List Wildcard)
  | 0, _, _ => .ok []
  | fuel + 1, previous, text =>
    let position := total - text.length
    match text with
    | [] => .ok []
    | '?' :: rest => do .ok (.anyChar :: (← read total fuel (some '?') rest))
    | '*' :: '*' :: '*' :: _ => .error (.wildcards (position + 2))
    | '*' :: '*' :: rest => do
      let after ← readStars position previous rest
      let last := if after.length < rest.length then '/' else '*'
      .ok (.anyDirectories :: (← read total fuel (some last) after))
    | '*' :: rest => do .ok (.anyChars :: (← read total fuel (some '*') rest))
    | '[' :: rest =>
      match readClass rest with
      | some (wildcard, after) => do .ok (wildcard :: (← read total fuel (some ']') after))
      | none => .error (.range position)
    | c :: rest => do .ok (.char c :: (← read total fuel (some c) rest))

def parse (text : List Char) : Except PatternError (List Wildcard) :=
  read text.length (text.length + 1) none text

def fitsWithin : Nat → List Wildcard → List Char → Bool
  | 0, _, _ => false
  | _ + 1, [], name => name.isEmpty
  | fuel + 1, wildcard :: rest, name =>
    match wildcard, name with
    | .anyChars, [] | .anyDirectories, [] => fitsWithin fuel rest []
    | .anyChars, c :: others | .anyDirectories, c :: others =>
      fitsWithin fuel rest (c :: others) || fitsWithin fuel (wildcard :: rest) others
    | _, [] => false
    | .char other, c :: others => c == other && fitsWithin fuel rest others
    | .anyChar, _ :: others => fitsWithin fuel rest others
    | .within members, c :: others => members.any (·.holds c) && fitsWithin fuel rest others
    | .except members, c :: others => !members.any (·.holds c) && fitsWithin fuel rest others

def fits (wildcards : List Wildcard) (name : List Char) : Bool :=
  fitsWithin (wildcards.length + name.length + 1) wildcards name

inductive Piece where
  | literal (name : String)
  | wild (wildcards : List Wildcard)
  | anyDepth
deriving DecidableEq, Repr

def literal? : List Wildcard → Option (List Char)
  | [] => some []
  | .char c :: rest => (literal? rest).map (c :: ·)
  | _ => none

def Piece.ofWildcards (wildcards : List Wildcard) : Piece :=
  if wildcards.contains .anyDirectories then .anyDepth
  else match literal? wildcards with
    | some name => .literal (String.ofList name)
    | none => .wild wildcards

def pieceTexts (text : List Char) : List (List Char) :=
  match (splitAt '/' text).reverse with
  | [] :: earlier => earlier.reverse
  | pieces => pieces.reverse

def Piece.fitsName (piece : Piece) (name : String) : Bool :=
  match piece with
  | .literal text => name == text
  | .wild wildcards => fits wildcards name.toList
  | .anyDepth => true

end Pattern

structure PathPattern where
  start : String
  pieces : List Pattern.Piece
  onlyDirectories : Bool
deriving DecidableEq, Repr

namespace PathPattern

open Pattern

/-- The whole text has to be a pattern, and every piece of it again. -/
def parse (text : String) : Except PatternError PathPattern := do
  let chars := text.toList
  let _ ← Pattern.parse chars
  let isAbsolute := chars.head? == some '/'
  let relative := if isAbsolute then chars.drop 1 else chars
  let texts := if relative.isEmpty then [[]] else pieceTexts relative
  let pieces ← texts.mapM fun piece => (Pattern.parse piece).map Piece.ofWildcards
  .ok ⟨if isAbsolute then "/" else ".", pieces, chars.getLast? == some '/'⟩

/-- The path of a name in a directory; the current directory is left out. -/
def extend (directory name : String) : String :=
  if Path.components directory = [.here] then name else Path.join directory name

/-- The dots that a piece with a dot in front matches, besides the names in a directory. -/
def dotNames (wildcards : List Wildcard) : List String :=
  match wildcards with
  | .char '.' :: _ => [".", ".."].filter fun dots => fits wildcards dots.toList
  | _ => []

/-- What a directory holds; nothing if it cannot be read. -/
def listed (names : Except FileError (List (String × Kind))) : List (String × Kind) :=
  match names with
  | .ok names => names
  | .error _ => []

variable {m : Type → Type} [Monad m]

def expand (files : Files m) : List Piece → String → Kind → m (List String)
  | [], path, _ => pure [path]
  | .literal name :: rest, path, kind => do
    let isDots := name == "." || name == ".."
    let next := extend path name
    let nextKind ← files.kind next
    if (isDots && kind == .directory) || (!isDots && nextKind != .missing) then
      expand files rest next nextKind
    else pure []
  | .wild wildcards :: rest, path, kind => do
    if kind != .directory then pure []
    else
      let dots ← (dotNames wildcards).mapM fun dots => do
        let next := Path.join path dots
        expand files rest next (← files.kind next)
      let names ← files.entries path
      let fitting := (listed names).filter fun pair => fits wildcards pair.1.toList
      let found ← fitting.mapM fun pair => expand files rest (extend path pair.1) pair.2
      pure (dots.flatten ++ found.flatten)
  | .anyDepth :: .anyDepth :: rest, path, kind => expand files (.anyDepth :: rest) path kind
  | [.anyDepth], path, kind => do
    if kind != .directory then pure []
    else
      let inside ← files.below path
      pure <| inside.filterMap fun (names, nameKind) =>
        if nameKind == .directory then some (names.foldl extend path) else none
  | .anyDepth :: piece :: rest, path, kind => do
    if kind != .directory then pure []
    else
      let inside ← files.below path
      let fitting := inside.filter fun pair => piece.fitsName (pair.1.getLast?.getD "")
      let found ← fitting.mapM fun pair => expand files rest (pair.1.foldl extend path) pair.2
      pure found.flatten

def matchingFiles (files : Files m) (pattern : PathPattern) : m (List String) := do
  let found ← expand files pattern.pieces pattern.start (← files.kind pattern.start)
  if pattern.onlyDirectories then pure []
  else found.filterM fun path => do pure ((← files.kind path) == .file)

end PathPattern
end AnnotatedApi
