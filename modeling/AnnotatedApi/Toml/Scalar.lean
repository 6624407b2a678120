import AnnotatedApi.Data.Tree
import AnnotatedApi.Text.Basic

/-!
# TOML numbers, booleans, dates and times

A value that is neither a string nor a container is one run of characters.  A
date or a time has no form of its own among trees: it becomes a table with one
reserved member that holds its text.
-/

set_option autoImplicit false

namespace AnnotatedApi.Toml

open Data Text

def isScalarChar (c : Char) : Bool :=
  c.isAlphanum || c == '_' || c == '+' || c == '-' || c == '.' || c == ':'

/-! ## Numbers -/

/-- The digits of a text in which single underscores may stand between digits. -/
def plainDigits? (isDigit : Char → Bool) : List Char → Option (List Char)
  | [] => none
  | [c] => if isDigit c then some [c] else none
  | c :: '_' :: rest => if isDigit c then (plainDigits? isDigit rest).map (c :: ·) else none
  | c :: next :: rest =>
    if isDigit c then (plainDigits? isDigit (next :: rest)).map (c :: ·) else none

def digitIn (base : Nat) (c : Char) : Option Nat :=
  (hexValue? c).filter (· < base)

def numberIn (base : Nat) (digits : List Char) : Nat :=
  digits.foldl (fun value c => value * base + (digitIn base c).getD 0) 0

/-- Whole digits without a leading zero, unless zero is the only one. -/
def wholeDigits? (text : List Char) : Option (List Char) := do
  let digits ← plainDigits? Char.isDigit text
  match digits with
  | '0' :: _ :: _ => none
  | _ => some digits

def unsigned? (base : Nat) (text : List Char) : Option Tree := do
  let digits ← plainDigits? (fun c => (digitIn base c).isSome) text
  some (.integer (numberIn base digits))

def splitSign : List Char → Bool × List Char
  | '-' :: rest => (true, rest)
  | '+' :: rest => (false, rest)
  | rest => (false, rest)

def exponent? (text : List Char) : Option Int := do
  let (negative, rest) := splitSign text
  let digits ← plainDigits? Char.isDigit rest
  let size : Int := numberIn 10 digits
  some (if negative then -size else size)

def float? (negative : Bool) (text : List Char) : Option Tree := do
  let isMark := fun c => c == 'e' || c == 'E'
  let power ← match text.dropWhile (fun c => !isMark c) with
    | [] => some 0
    | _ :: rest => exponent? rest
  let mantissa := text.takeWhile fun c => !isMark c
  let whole ← wholeDigits? (mantissa.takeWhile (· != '.'))
  let fraction ← match mantissa.dropWhile (· != '.') with
    | [] => some []
    | _ :: rest => plainDigits? Char.isDigit rest
  let value ← Binary64.ofDecimal? negative (numberIn 10 (whole ++ fraction))
    (power - (fraction.length : Nat))
  some (.binary value)

def number? (text : List Char) : Option Tree :=
  match text with
  | '0' :: 'x' :: rest => unsigned? 16 rest
  | '0' :: 'o' :: rest => unsigned? 8 rest
  | '0' :: 'b' :: rest => unsigned? 2 rest
  | _ =>
    let (negative, rest) := splitSign text
    if rest = ['i', 'n', 'f'] ∨ rest = ['n', 'a', 'n'] then some .nonFinite
    else match wholeDigits? rest with
      | some digits =>
        let size : Int := numberIn 10 digits
        some (.integer (if negative then -size else size))
      | none => float? negative rest

/-! ## Dates and times -/

def fixedNumber (count : Nat) (text : List Char) : Option (Nat × List Char) :=
  let digits := text.take count
  if digits.length = count ∧ digits.all Char.isDigit then
    some (numberIn 10 digits, text.drop count)
  else none

def isLeapYear (year : Nat) : Bool :=
  (year % 4 == 0 && year % 100 != 0) || year % 400 == 0

def daysInMonth (year month : Nat) : Nat :=
  if month = 2 then (if isLeapYear year then 29 else 28)
  else if month = 4 ∨ month = 6 ∨ month = 9 ∨ month = 11 then 30
  else 31

def readDate (text : List Char) : Option (List Char × List Char) := do
  let (year, rest) ← fixedNumber 4 text
  match rest with
  | '-' :: rest =>
    let (month, rest) ← fixedNumber 2 rest
    match rest with
    | '-' :: rest =>
      let (day, rest) ← fixedNumber 2 rest
      if 1 ≤ month ∧ month ≤ 12 ∧ 1 ≤ day ∧ day ≤ daysInMonth year month then
        some (text.take 10, rest)
      else none
    | _ => none
  | _ => none

/-- A fraction of a second has nine digits at most, and no zero at its end but one that stands alone. -/
def fractionText (digits : List Char) : List Char :=
  match ((digits.take 9).reverse.dropWhile (· == '0')).reverse with
  | [] => ['.', '0']
  | shown => '.' :: shown

def readTime (text : List Char) : Option (List Char × List Char) := do
  let (hour, rest) ← fixedNumber 2 text
  match rest with
  | ':' :: rest =>
    let (minute, rest) ← fixedNumber 2 rest
    if 23 < hour ∨ 59 < minute then none
    else match rest with
      | ':' :: rest =>
        let (second, rest) ← fixedNumber 2 rest
        if 60 < second then none
        else match rest with
          | '.' :: rest =>
            let digits := rest.takeWhile Char.isDigit
            if digits.isEmpty then none
            else some (text.take 8 ++ fractionText digits, rest.dropWhile Char.isDigit)
          | rest => some (text.take 8, rest)
      | rest => some (text.take 5, rest)
  | _ => none

def offsetText? (text : List Char) : Option (List Char) :=
  match text with
  | [] => some []
  | ['Z'] | ['z'] => some ['Z']
  | sign :: rest =>
    if sign = '+' ∨ sign = '-' then do
      let (hour, rest) ← fixedNumber 2 rest
      match rest with
      | ':' :: rest =>
        let (minute, rest) ← fixedNumber 2 rest
        if 23 < hour ∨ 59 < minute ∨ !rest.isEmpty then none
        else
          let shown := if hour = 0 ∧ minute = 0 then '+' else sign
          some (shown :: (text.drop 1))
      | _ => none
    else none

def dateTimeText? (text : List Char) : Option (List Char) :=
  match readDate text with
  | some (date, []) => some date
  | some (date, mark :: rest) =>
    if mark = 'T' ∨ mark = 't' ∨ mark = ' ' then do
      let (time, rest) ← readTime rest
      let offset ← offsetText? rest
      some (date ++ 'T' :: (time ++ offset))
    else none
  | none => do
    let (time, rest) ← readTime text
    if rest.isEmpty then some time else none

/-- The name of the one member of a date's table. -/
def dateTimeKey : String := "$__toml_private_datetime"

def dateTime? (text : List Char) : Option Tree := do
  let shown ← dateTimeText? text
  some (.table [(dateTimeKey, .string (String.ofList shown))])

/-! ## Runs -/

def scalar? (text : List Char) : Option Tree :=
  if text = ['t', 'r', 'u', 'e'] then some (.bool true)
  else if text = ['f', 'a', 'l', 's', 'e'] then some (.bool false)
  else match number? text with
    | some number => some number
    | none => dateTime? text

/-- The run at the start of a text and what follows it.  A time after a date may
be separated from it by a space. -/
def spanScalar (text : List Char) : List Char × List Char :=
  let (run, rest) := text.span isScalarChar
  match rest with
  | ' ' :: c :: more =>
    if (readDate run).isSome ∧ run.length = 10 ∧ c.isDigit then
      let (time, after) := (c :: more).span isScalarChar
      (run ++ ' ' :: time, after)
    else (run, rest)
  | _ => (run, rest)

def readScalar (text : List Char) : Option (Tree × List Char) :=
  let (run, rest) := spanScalar text
  (scalar? run).map fun tree => (tree, rest)

end AnnotatedApi.Toml
