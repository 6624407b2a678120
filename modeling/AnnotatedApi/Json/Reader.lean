import AnnotatedApi.Json.Numeral
import AnnotatedApi.Text.Basic

/-!
# Reading JSON texts

A text holds one value with blanks around it.  Containers nest to a depth of
`maximalDepth`; a control character in a string, half a surrogate pair and a
comma without a following item are refused.  The reader answers only whether a
text can be read, not where it fails.
-/

set_option autoImplicit false

namespace AnnotatedApi.Json

open Data Text

/-- How many containers may be open at one place. -/
def maximalDepth : Nat := 127

def isJsonBlank (c : Char) : Bool := c == ' ' || c == '\n' || c == '\t' || c == '\r'

def skipBlanks (text : List Char) : List Char := text.dropWhile isJsonBlank

/-! ## Strings -/

def codeUnit? (a b c d : Char) : Option Nat := do
  some ((((← hexValue? a) * 16 + (← hexValue? b)) * 16 + (← hexValue? c)) * 16 + (← hexValue? d))

def shortEscape? : Char → Option Char
  | '"' => some '"'
  | '\\' => some '\\'
  | '/' => some '/'
  | 'b' => some '\x08'
  | 'f' => some '\x0c'
  | 'n' => some '\n'
  | 'r' => some '\r'
  | 't' => some '\t'
  | _ => none

def readString : List Char → Option (List Char × List Char)
  | [] => none
  | '"' :: rest => some ([], rest)
  | '\\' :: 'u' :: a :: b :: c :: d :: rest => do
    let unit ← codeUnit? a b c d
    if 0xD800 ≤ unit ∧ unit < 0xDC00 then
      match rest with
      | '\\' :: 'u' :: e :: f :: g :: h :: rest =>
        let low ← codeUnit? e f g h
        if 0xDC00 ≤ low ∧ low < 0xE000 then
          let (text, after) ← readString rest
          some (Char.ofNat (0x10000 + (unit - 0xD800) * 0x400 + (low - 0xDC00)) :: text, after)
        else none
      | _ => none
    else if 0xDC00 ≤ unit ∧ unit < 0xE000 then none
    else
      let (text, after) ← readString rest
      some (Char.ofNat unit :: text, after)
  | '\\' :: c :: rest => do
    let escaped ← shortEscape? c
    let (text, after) ← readString rest
    some (escaped :: text, after)
  | c :: rest =>
    if c = '\\' ∨ c.toNat < 32 then none
    else do
      let (text, after) ← readString rest
      some (c :: text, after)

/-! ## Values -/

mutual

/-- One value and what follows it.  `fuel` bounds the steps, `depth` the
containers that may still be opened. -/
def readValue : Nat → Nat → List Char → Option (Tree × List Char)
  | 0, _, _ => none
  | fuel + 1, depth, text =>
    match skipBlanks text with
    | '"' :: rest => (readString rest).map fun (text, after) => (.string (String.ofList text), after)
    | '[' :: rest =>
      if depth = 0 then none
      else match skipBlanks rest with
        | ']' :: after => some (.array [], after)
        | rest => (readItems fuel (depth - 1) rest).map fun (items, after) => (.array items, after)
    | '\x7b' :: rest =>
      if depth = 0 then none
      else match skipBlanks rest with
        | '\x7d' :: after => some (.table [], after)
        | rest =>
          (readMembers fuel (depth - 1) rest).map fun (members, after) => (.table members, after)
    | 'n' :: 'u' :: 'l' :: 'l' :: after => some (.null, after)
    | 't' :: 'r' :: 'u' :: 'e' :: after => some (.bool true, after)
    | 'f' :: 'a' :: 'l' :: 's' :: 'e' :: after => some (.bool false, after)
    | '-' :: rest => readNumeral true rest
    | rest => readNumeral false rest

def readItems : Nat → Nat → List Char → Option (List Tree × List Char)
  | 0, _, _ => none
  | fuel + 1, depth, text => do
    let (item, rest) ← readValue fuel depth text
    match skipBlanks rest with
    | ',' :: rest =>
      let (items, after) ← readItems fuel depth rest
      some (item :: items, after)
    | ']' :: after => some ([item], after)
    | _ => none

def readMembers : Nat → Nat → List Char → Option (List (String × Tree) × List Char)
  | 0, _, _ => none
  | fuel + 1, depth, text =>
    match skipBlanks text with
    | '"' :: rest => do
      let (key, rest) ← readString rest
      match skipBlanks rest with
      | ':' :: rest =>
        let (value, rest) ← readValue fuel depth rest
        match skipBlanks rest with
        | ',' :: rest =>
          let (members, after) ← readMembers fuel depth rest
          some ((String.ofList key, value) :: members, after)
        | '\x7d' :: after => some ([(String.ofList key, value)], after)
        | _ => none
      | _ => none
    | _ => none

end

/-- The tree of a JSON text.  Every two steps take at least one character, so
the fuel suffices. -/
def read? (text : String) : Option Tree := do
  let chars := text.toList
  let (tree, rest) ← readValue (2 * chars.length + 2) maximalDepth chars
  if (skipBlanks rest).isEmpty then some tree else none

end AnnotatedApi.Json
