import AnnotatedApi.Text.Basic

/-!
# Layout and strings of a TOML text

A line ends at a line feed, with or without a carriage return in front.  A carriage
return anywhere else, and every other control character but the tab, is refused.  Of the
four kinds of strings a basic one has escapes and a literal one has none; both come on
one line between single delimiters or on several lines between threefold ones.  A
threefold delimiter may have up to two more quotes in front, which belong to the string,
and a line end right after the opening one is dropped.
-/

set_option autoImplicit false

namespace AnnotatedApi.Toml

open Text

/-! ## Blanks, line ends and comments -/

def isForbidden (c : Char) : Bool := (c.toNat < 32 && c != '\t') || c.toNat == 127

def skipBlanks (text : List Char) : List Char := text.dropWhile isBlank

def lineEnd? : List Char → Option (List Char)
  | '\n' :: rest => some rest
  | '\r' :: '\n' :: rest => some rest
  | _ => none

/-- Skips a comment up to its line end, which is left. -/
def skipComment : List Char → Option (List Char)
  | [] => some []
  | '\n' :: rest => some ('\n' :: rest)
  | '\r' :: '\n' :: rest => some ('\r' :: '\n' :: rest)
  | c :: rest => if isForbidden c then none else skipComment rest

/-- The next line, if the rest of this one is blank or a comment. -/
def endLine (text : List Char) : Option (List Char) := do
  let rest ← match skipBlanks text with
    | '#' :: comment => skipComment comment
    | other => some other
  match rest with
  | [] => some []
  | rest => lineEnd? rest

/-- Skips blanks, line ends and comments, as they may stand between the items of
an array.  The flag tells whether the text begins inside a comment. -/
def skipFiller (inComment : Bool) : List Char → Option (List Char)
  | [] => some []
  | '\n' :: rest => skipFiller false rest
  | '\r' :: '\n' :: rest => skipFiller false rest
  | c :: rest =>
    if inComment then
      if isForbidden c then none else skipFiller true rest
    else if isBlank c then skipFiller false rest
    else if c = '#' then skipFiller true rest
    else some (c :: rest)

/-! ## Strings -/

def hexNumber? : Nat → List Char → Option Nat
  | value, [] => some value
  | value, c :: rest => do hexNumber? (value * 16 + (← hexValue? c)) rest

def readCode (count : Nat) (text : List Char) : Option (Char × List Char) := do
  let digits := text.take count
  if digits.length < count then none
  else
    let code ← hexNumber? 0 digits
    if code < 0xD800 ∨ (0xE000 ≤ code ∧ code < 0x110000) then
      some (Char.ofNat code, text.drop count)
    else none

def readEscape : List Char → Option (Char × List Char)
  | 'b' :: rest => some ('\x08', rest)
  | 't' :: rest => some ('\t', rest)
  | 'n' :: rest => some ('\n', rest)
  | 'f' :: rest => some ('\x0c', rest)
  | 'r' :: rest => some ('\r', rest)
  | 'e' :: rest => some ('\x1b', rest)
  | '"' :: rest => some ('"', rest)
  | '\\' :: rest => some ('\\', rest)
  | 'x' :: rest => readCode 2 rest
  | 'u' :: rest => readCode 4 rest
  | 'U' :: rest => readCode 8 rest
  | _ => none

def readBasic : Nat → List Char → Option (List Char × List Char)
  | 0, _ => none
  | fuel + 1, text =>
    match text with
    | [] => none
    | '"' :: rest => some ([], rest)
    | '\\' :: rest => do
      let (c, rest) ← readEscape rest
      let (content, after) ← readBasic fuel rest
      some (c :: content, after)
    | c :: rest =>
      if isForbidden c then none
      else do
        let (content, after) ← readBasic fuel rest
        some (c :: content, after)

def readLiteral : List Char → Option (List Char × List Char)
  | [] => none
  | '\'' :: rest => some ([], rest)
  | c :: rest =>
    if isForbidden c then none
    else do
      let (content, after) ← readLiteral rest
      some (c :: content, after)

/-- The end of a long string at a run of its quotes: the quotes that belong to
the string, and what follows the delimiter. -/
def closeLong (quote : Char) (text : List Char) : Option (List Char × List Char) :=
  let run := (text.takeWhile (· == quote)).length
  if run < 3 then none
  else
    let extra := min (run - 3) 2
    some (List.replicate extra quote, text.drop (extra + 3))

def skipBreaks : List Char → List Char
  | '\n' :: rest => skipBreaks rest
  | '\r' :: '\n' :: rest => skipBreaks rest
  | c :: rest => if isBlank c then skipBreaks rest else c :: rest
  | [] => []

/-- What follows a backslash at the end of a line: blanks and line ends are skipped. -/
def skipJoint (text : List Char) : Option (List Char) :=
  (lineEnd? (skipBlanks text)).map skipBreaks

/-- A long string after its opening delimiter; `escapes` tells whether it is a basic one. -/
def readLong (quote : Char) (escapes : Bool) : Nat → List Char → Option (List Char × List Char)
  | 0, _ => none
  | fuel + 1, text =>
    match closeLong quote text with
    | some closed => some closed
    | none =>
      match text with
      | [] => none
      | '\r' :: '\n' :: rest => do
        let (content, after) ← readLong quote escapes fuel rest
        some ('\r' :: '\n' :: content, after)
      | c :: rest =>
        if c = '\\' ∧ escapes then
          match skipJoint rest with
          | some rest => readLong quote escapes fuel rest
          | none => do
            let (escaped, rest) ← readEscape rest
            let (content, after) ← readLong quote escapes fuel rest
            some (escaped :: content, after)
        else if isForbidden c ∧ c ≠ '\n' then none
        else do
          let (content, after) ← readLong quote escapes fuel rest
          some (c :: content, after)

def dropLineEnd (text : List Char) : List Char := (lineEnd? text).getD text

/-- A string on one line, from its opening quote on; the form a key may have. -/
def readShortString : List Char → Option (List Char × List Char)
  | '"' :: rest => readBasic (rest.length + 1) rest
  | '\'' :: rest => readLiteral rest
  | _ => none

def readString : List Char → Option (List Char × List Char)
  | '"' :: '"' :: '"' :: rest => readLong '"' true (rest.length + 1) (dropLineEnd rest)
  | '\'' :: '\'' :: '\'' :: rest => readLong '\'' false (rest.length + 1) (dropLineEnd rest)
  | text => readShortString text

end AnnotatedApi.Toml
