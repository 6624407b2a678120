import AnnotatedApi.Toml.Quoted
import AnnotatedApi.Toml.Scalar
import AnnotatedApi.Toml.Table

/-!
# Reading TOML texts

A text is a list of lines: headers, which open a table, and keys with values,
which go into the table opened last.  Arrays and inline tables may span lines.
The reader answers only whether a text can be read, not where it fails.
-/

set_option autoImplicit false

namespace AnnotatedApi.Toml

open Data

/-- How many arrays and inline tables may be open at one place. -/
def maximalDepth : Nat := 80

/-! ## Keys -/

def isKeyChar (c : Char) : Bool := c.isAlphanum || c == '_' || c == '-'

def readKeyPart (text : List Char) : Option (String × List Char) :=
  match text with
  | '"' :: _ | '\'' :: _ => (readShortString text).map fun (key, rest) => (String.ofList key, rest)
  | _ =>
    let (key, rest) := text.span isKeyChar
    if key.isEmpty then none else some (String.ofList key, rest)

def readKey : Nat → List Char → Option (List String × String × List Char)
  | 0, _ => none
  | fuel + 1, text => do
    let (part, rest) ← readKeyPart (skipBlanks text)
    match skipBlanks rest with
    | '.' :: rest =>
      let (path, last, after) ← readKey fuel rest
      some (part :: path, last, after)
    | rest => some ([], part, rest)

/-! ## Values -/

mutual

/-- One value and what follows it.  `fuel` bounds the steps, `depth` the
containers that may still be opened. -/
def readValue : Nat → Nat → List Char → Option (Tree × List Char)
  | 0, _, _ => none
  | fuel + 1, depth, text =>
    match text with
    | '"' :: _ | '\'' :: _ =>
      (readString text).map fun (content, rest) => (.string (String.ofList content), rest)
    | '[' :: rest =>
      if depth = 0 then none
      else (readItems fuel (depth - 1) rest).map fun (items, after) => (.array items, after)
    | '\x7b' :: rest =>
      if depth = 0 then none
      else (readInline fuel (depth - 1) [] rest).map fun (members, after) => (members.tree, after)
    | _ => readScalar text

def readItems : Nat → Nat → List Char → Option (List Tree × List Char)
  | 0, _, _ => none
  | fuel + 1, depth, text => do
    match ← skipFiller false text with
    | ']' :: after => some ([], after)
    | rest =>
      let (item, rest) ← readValue fuel depth rest
      match ← skipFiller false rest with
      | ']' :: after => some ([item], after)
      | ',' :: rest =>
        let (items, after) ← readItems fuel depth rest
        some (item :: items, after)
      | _ => none

/-- The members of an inline table up to its closing brace, added to those that
were read already; a comma may follow the last one. -/
def readInline : Nat → Nat → Members → List Char → Option (Members × List Char)
  | 0, _, _, _ => none
  | fuel + 1, depth, members, text => do
    match ← skipFiller false text with
    | '\x7d' :: after => some (members, after)
    | rest =>
      let (path, key, rest) ← readKey rest.length rest
      match rest with
      | '=' :: rest =>
        let (tree, rest) ← readValue fuel depth (skipBlanks rest)
        let members ← Members.assign members path key tree
        match ← skipFiller false rest with
        | '\x7d' :: after => some (members, after)
        | ',' :: rest => readInline fuel depth members rest
        | _ => none
      | _ => none

end

/-! ## Lines -/

structure Progress where
  members : Members
  header : List String

def readLine (progress : Progress) (text : List Char) : Option (Progress × List Char) :=
  match text with
  | '[' :: '[' :: rest => do
    let (path, key, rest) ← readKey rest.length rest
    match rest with
    | ']' :: ']' :: rest =>
      let members ← progress.members.openNext path key
      some (⟨members, path ++ [key]⟩, ← endLine rest)
    | _ => none
  | '[' :: rest => do
    let (path, key, rest) ← readKey rest.length rest
    match rest with
    | ']' :: rest =>
      let members ← progress.members.openTable path key
      some (⟨members, path ++ [key]⟩, ← endLine rest)
    | _ => none
  | _ => do
    let (path, key, rest) ← readKey text.length text
    match rest with
    | '=' :: rest =>
      let rest := skipBlanks rest
      let (tree, rest) ← readValue (2 * rest.length + 2) maximalDepth rest
      let members ← progress.members.assignUnder progress.header path key tree
      some ({ progress with members }, ← endLine rest)
    | _ => none

/-- Reads line after line; every one takes at least one character. -/
def readLines : Nat → Progress → List Char → Option Members
  | 0, _, _ => none
  | fuel + 1, progress, text => do
    match ← skipFiller false text with
    | [] => some progress.members
    | rest =>
      let (progress, rest) ← readLine progress rest
      readLines fuel progress rest

/-- The tree of a TOML text; a byte order mark in front is skipped. -/
def read? (text : String) : Option Tree := do
  let chars := match text.toList with
    | '\ufeff' :: rest => rest
    | rest => rest
  let members ← readLines (chars.length + 1) ⟨[], []⟩ chars
  some members.tree

end AnnotatedApi.Toml
