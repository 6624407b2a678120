import AnnotatedApi.Text.Basic

/-!
# Access to files and trees of files

What a run needs of a file system: looking at it, and changing it.  Both are collections
of operations on paths as they are written, so that a run is the same program over a
tree of files held as a value and over the files of a machine.  Such a tree is a file
system without links: every place below the root, named by the names that lead to it,
with what is there.  A path is followed from the current directory or from the root, and
every place on the way has to be a directory.
-/

set_option autoImplicit false

namespace AnnotatedApi

open Text

/-! ## Access -/

inductive Kind where
  | missing
  | file
  | directory
deriving DecidableEq, Repr

inductive FileError where
  | notFound
  | exists
  | notDirectory
  | isDirectory
  | notText
  | other (text : String) (code : Nat)
deriving DecidableEq, Repr

def FileError.message : FileError → String
  | .notFound => "No such file or directory (os error 2)"
  | .exists => "File exists (os error 17)"
  | .notDirectory => "Not a directory (os error 20)"
  | .isDirectory => "Is a directory (os error 21)"
  | .notText => "stream did not contain valid UTF-8"
  | .other text code => text ++ " (os error " ++ toString code ++ ")"

structure Files (m : Type → Type) where
  kind : String → m Kind
  entries : String → m (Except FileError (List (String × Kind)))
  /-- Everything below a directory: the names that lead there, and its kind.  A
  directory stands before what it holds. -/
  below : String → m (List (List String × Kind))
  text : String → m (Except FileError String)

structure Store (m : Type → Type) where
  kind : String → m Kind
  /-- Makes one directory in a directory that is there. -/
  makeDirectory : String → m (Except FileError Unit)
  /-- Gives a file a text, and makes the file if it is missing. -/
  write : String → String → m (Except FileError Unit)

/-! ## Trees -/

/-- The names that lead from the root to a place. -/
abbrev Place := List String

inductive Entry where
  | directory
  /-- A file and its text; a file that is not text has none. -/
  | file (text : Option String)
deriving DecidableEq, Repr

def Entry.kind : Entry → Kind
  | .directory => .directory
  | .file _ => .file

structure FileTree where
  entries : List (Place × Entry)
  /-- The place where relative paths start. -/
  current : Place
deriving DecidableEq, Repr

namespace FileTree

def lookupEntry (entries : List (Place × Entry)) (place : Place) : Option Entry :=
  match entries with
  | [] => none
  | (other, entry) :: rest => if other = place then some entry else lookupEntry rest place

/-- What is at a place; the root is always there. -/
def entryAt (tree : FileTree) (place : Place) : Option Entry :=
  if place.isEmpty then some .directory else lookupEntry tree.entries place

def putEntry (entries : List (Place × Entry)) (place : Place) (entry : Entry) :
    List (Place × Entry) :=
  match entries with
  | [] => [(place, entry)]
  | (other, kept) :: rest =>
    if other = place then (place, entry) :: rest else (other, kept) :: putEntry rest place entry

def put (tree : FileTree) (place : Place) (entry : Entry) : FileTree :=
  { tree with entries := putEntry tree.entries place entry }

theorem lookupEntry_putEntry (entries : List (Place × Entry)) (place other : Place) (entry : Entry) :
    lookupEntry (putEntry entries place entry) other =
      if place = other then some entry else lookupEntry entries other := by
  induction entries with
  | nil => simp [putEntry, lookupEntry]
  | cons pair rest ih =>
    obtain ⟨head, kept⟩ := pair
    rw [putEntry]
    split
    · next same =>
      subst same
      by_cases h : head = other <;> simp [lookupEntry, h]
    · next different =>
      by_cases h : head = other
      · subst h
        simp [lookupEntry, Ne.symm different]
      · simp [lookupEntry, h, ih]

/-! ## Following paths -/

/-- Follows the pieces of a path from a place.  Each piece, also an empty one,
needs a directory to start from; the last place need not exist. -/
def follow (tree : FileTree) (place : Place) : List (List Char) → Except FileError Place
  | [] => .ok place
  | piece :: rest =>
    match tree.entryAt place with
    | none => .error .notFound
    | some (.file _) => .error .notDirectory
    | some .directory =>
      if piece = [] ∨ piece = ['.'] then follow tree place rest
      else if piece = ['.', '.'] then follow tree place.dropLast rest
      else follow tree (place ++ [String.ofList piece]) rest

def place (tree : FileTree) (path : String) : Except FileError Place :=
  if path.isEmpty then .error .notFound
  else
    let start := if path.toList.head? = some '/' then [] else tree.current
    tree.follow start (splitAt '/' path.toList)

def find (tree : FileTree) (path : String) : Except FileError Entry := do
  match tree.entryAt (← tree.place path) with
  | some entry => .ok entry
  | none => .error .notFound

def kind (tree : FileTree) (path : String) : Kind :=
  match tree.find path with
  | .ok entry => entry.kind
  | .error _ => .missing

def text (tree : FileTree) (path : String) : Except FileError String := do
  match ← tree.find path with
  | .directory => .error .isDirectory
  | .file none => .error .notText
  | .file (some text) => .ok text

/-! ## Directories -/

def insertByName {α : Type} (before : α → α → Bool) (item : α) : List α → List α
  | [] => [item]
  | other :: rest =>
    if before item other then item :: other :: rest else other :: insertByName before item rest

/-- The order in which a directory stands before what it holds. -/
def placeBefore : Place → Place → Bool
  | [], _ => true
  | _ :: _, [] => false
  | a :: first, b :: second => if a = b then placeBefore first second else decide (a < b)

def belowPlace (tree : FileTree) (directory : Place) : List (List String × Kind) :=
  let inside := tree.entries.filterMap fun (place, entry) =>
    match directory.isPrefixOf? place with
    | some (name :: names) => some (name :: names, entry.kind)
    | _ => none
  inside.foldr (insertByName fun a b => placeBefore a.1 b.1) []

def below (tree : FileTree) (path : String) : List (List String × Kind) :=
  match tree.place path with
  | .ok place => tree.belowPlace place
  | .error _ => []

def entriesOf (tree : FileTree) (path : String) : Except FileError (List (String × Kind)) := do
  let place ← tree.place path
  match tree.entryAt place with
  | none => .error .notFound
  | some (.file _) => .error .notDirectory
  | some .directory => .ok <| (tree.belowPlace place).filterMap fun (names, kind) =>
    match names with
    | [name] => some (name, kind)
    | _ => none

/-! ## Changes -/

/-- The path without the separators at its end, which do not matter to a new directory.
A path of separators alone is the root. -/
def withoutFinalSeparators (path : String) : String :=
  match path.toList.reverse.dropWhile (· == '/') with
  | [] => path
  | stem => String.ofList stem.reverse

def makeDirectory (tree : FileTree) (path : String) : Except FileError FileTree := do
  let place ← tree.place (withoutFinalSeparators path)
  match tree.entryAt place with
  | some _ => .error .exists
  | none =>
    match tree.entryAt place.dropLast with
    | some .directory => .ok (tree.put place .directory)
    | some (.file _) => .error .notDirectory
    | none => .error .notFound

def write (tree : FileTree) (path text : String) : Except FileError FileTree := do
  let place ← tree.place path
  match tree.entryAt place with
  | some .directory => .error .isDirectory
  | some (.file _) => .ok (tree.put place (.file (some text)))
  | none =>
    match tree.entryAt place.dropLast with
    | some .directory => .ok (tree.put place (.file (some text)))
    | some (.file _) => .error .notDirectory
    | none => .error .notFound

/-! ## Access -/

def files (tree : FileTree) : Files Id where
  kind := tree.kind
  entries := tree.entriesOf
  below := tree.below
  text := tree.text

def applyChange (change : FileTree → Except FileError FileTree) :
    StateM FileTree (Except FileError Unit) := fun tree =>
  match change tree with
  | .ok next => (.ok (), next)
  | .error cause => (.error cause, tree)

def store : Store (StateM FileTree) where
  kind path := fun tree => (tree.kind path, tree)
  makeDirectory path := applyChange fun tree => tree.makeDirectory path
  write path text := applyChange fun tree => tree.write path text

end FileTree
end AnnotatedApi
