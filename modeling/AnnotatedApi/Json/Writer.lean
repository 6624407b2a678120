import AnnotatedApi.Json.Value
import AnnotatedApi.Number.Shortest

/-!
# The two layouts of a JSON text

The compact layout has no blank outside its strings.  The indented layout puts
every item and member on a line of its own, two spaces deeper than its
container, and keeps an empty container on one line.  Numbers and strings are
written the same way in both.
-/

set_option autoImplicit false

namespace AnnotatedApi.Json

/-! ## Numbers -/

def natText (n : Nat) : List Char := Nat.toDigits 10 n

def intText : Int → List Char
  | .ofNat n => natText n
  | .negSucc n => '-' :: natText (n + 1)

/-- Digits with a point after the first `whole` of them, and a zero on a side that has none. -/
def pointText (digits : List Char) (whole : Int) : List Char :=
  if whole ≤ 0 then
    '0' :: '.' :: (List.replicate (-whole).toNat '0' ++ digits)
  else if digits.length ≤ whole.toNat then
    digits ++ List.replicate (whole.toNat - digits.length) '0' ++ ['.', '0']
  else digits.take whole.toNat ++ '.' :: digits.drop whole.toNat

def scientificText (digits : List Char) (power : Int) : List Char :=
  let mantissa := match digits with
    | first :: next :: rest => first :: '.' :: next :: rest
    | short => short
  let sign := if power < 0 then '-' else '+'
  mantissa ++ 'e' :: sign :: natText power.natAbs

/-- The shortest decimal of a number: with a point while its leading digit stands
for a power of ten from `-5` to `15`, and in scientific form otherwise. -/
def binaryText (x : Binary64) : List Char :=
  let sign := if x.negative then ['-'] else []
  if x.isZero then sign ++ ['0', '.', '0']
  else
    let decimal := x.shortest
    let digits := natText decimal.digits
    let power := decimal.exponent + (digits.length : Int) - 1
    if -5 ≤ power ∧ power ≤ 15 then sign ++ pointText digits (power + 1)
    else sign ++ scientificText digits power

def Number.text : Number → List Char
  | .integer value => intText value
  | .binary value => binaryText value

/-! ## Strings -/

def hexDigit (n : Nat) : Char :=
  if n < 10 then Char.ofNat (48 + n) else Char.ofNat (87 + n)

/-- A character as it stands in a string: a quote, a backslash and the control
characters below the space are escaped, all others stand for themselves. -/
def escape (c : Char) : List Char :=
  if c = '"' then ['\\', '"']
  else if c = '\\' then ['\\', '\\']
  else if c.toNat = 8 then ['\\', 'b']
  else if c.toNat = 12 then ['\\', 'f']
  else if c = '\n' then ['\\', 'n']
  else if c = '\r' then ['\\', 'r']
  else if c = '\t' then ['\\', 't']
  else if c.toNat < 32 then ['\\', 'u', '0', '0', hexDigit (c.toNat / 16), hexDigit (c.toNat % 16)]
  else [c]

def quoted (text : String) : List Char := '"' :: (text.toList.flatMap escape ++ ['"'])

/-! ## Values -/

namespace Value

mutual

def compactChars : Value → List Char
  | .null => ['n', 'u', 'l', 'l']
  | .bool true => ['t', 'r', 'u', 'e']
  | .bool false => ['f', 'a', 'l', 's', 'e']
  | .number value => value.text
  | .string text => quoted text
  | .array items => '[' :: (compactItems items ++ [']'])
  | .object members => '{' :: (compactMembers members ++ ['}'])

def compactItems : List Value → List Char
  | [] => []
  | [item] => item.compactChars
  | item :: next :: rest => item.compactChars ++ ',' :: compactItems (next :: rest)

def compactMembers : List (String × Value) → List Char
  | [] => []
  | [(key, value)] => quoted key ++ ':' :: value.compactChars
  | (key, value) :: next :: rest =>
    quoted key ++ ':' :: (value.compactChars ++ ',' :: compactMembers (next :: rest))

end

def newLine (depth : Nat) : List Char := '\n' :: List.replicate (2 * depth) ' '

mutual

def indentedChars (depth : Nat) : Value → List Char
  | .array [] => ['[', ']']
  | .array (item :: rest) =>
    '[' :: (indentedItems (depth + 1) (item :: rest) ++ newLine depth ++ [']'])
  | .object [] => ['{', '}']
  | .object (pair :: rest) =>
    '{' :: (indentedMembers (depth + 1) (pair :: rest) ++ newLine depth ++ ['}'])
  | .null => ['n', 'u', 'l', 'l']
  | .bool true => ['t', 'r', 'u', 'e']
  | .bool false => ['f', 'a', 'l', 's', 'e']
  | .number value => value.text
  | .string text => quoted text

def indentedItems (depth : Nat) : List Value → List Char
  | [] => []
  | [item] => newLine depth ++ item.indentedChars depth
  | item :: next :: rest =>
    newLine depth ++ item.indentedChars depth ++ ',' :: indentedItems depth (next :: rest)

def indentedMembers (depth : Nat) : List (String × Value) → List Char
  | [] => []
  | [(key, value)] => newLine depth ++ quoted key ++ ':' :: ' ' :: value.indentedChars depth
  | (key, value) :: next :: rest =>
    newLine depth ++ quoted key ++ ':' :: ' ' :: (value.indentedChars depth ++
      ',' :: indentedMembers depth (next :: rest))

end

def compact (value : Value) : String := String.ofList value.compactChars

def indented (value : Value) : String := String.ofList (value.indentedChars 0)

end Value
end AnnotatedApi.Json
