import AnnotatedApi.Data.Tree

/-!
# Reading numerals

A numeral without point and exponent that fits sixty-four bits is a whole
number.  Any other one is a binary64 number: its digits are collected in a word
of sixty-four bits, digits that no longer fit are dropped, and the word is
scaled by one rounded multiplication or division by a power of ten.
-/

set_option autoImplicit false

namespace AnnotatedApi.Json

open Data

def wordLimit : Nat := 18446744073709551616

def digitValue (c : Char) : Nat := c.toNat - 48

def spanDigits (text : List Char) : List Char × List Char := text.span Char.isDigit

/-- Adds digits to a word as long as it fits, and tells how many were left out. -/
def accumulate (word : Nat) : List Char → Nat × Nat
  | [] => (word, 0)
  | digit :: rest =>
    let longer := word * 10 + digitValue digit
    if longer < wordLimit then accumulate longer rest else (word, rest.length + 1)

/-- The word times a power of ten; there is no result past the greatest number.
A division by more than the greatest power of ten takes two steps. -/
def scaleWord (word : Nat) (power : Int) : Option Binary64 := do
  let start ← Binary64.ofNat? false word
  if start.isZero then some start
  else if 308 < power then none
  else if 0 ≤ power then start.mul? (Binary64.powerOfTen power.toNat)
  else if -308 ≤ power then start.div? (Binary64.powerOfTen (-power).toNat)
  else if -616 ≤ power then do
    let smaller ← start.div? (Binary64.powerOfTen 308)
    smaller.div? (Binary64.powerOfTen (-power - 308).toNat)
  else some (Binary64.zero false)

def withSign (negative : Bool) (x : Binary64) : Binary64 := { x with negative := negative }

/-- Exponents from `2 ^ 31` on are settled by their sign. -/
def exponentLimit : Nat := 2147483648

/-- The end of a numeral whose digits are read: an exponent or nothing. -/
def readExponent (negative : Bool) (word : Nat) (power : Int) (text : List Char) :
    Option (Tree × List Char) :=
  let finish (power : Int) (rest : List Char) : Option (Tree × List Char) :=
    (scaleWord word power).map fun x => (.binary (withSign negative x), rest)
  match text with
  | [] => finish power []
  | mark :: rest =>
    if mark = 'e' ∨ mark = 'E' then
      let (down, rest) := match rest with
        | '-' :: rest => (true, rest)
        | '+' :: rest => (false, rest)
        | rest => (false, rest)
      let (digits, rest) := spanDigits rest
      if digits.isEmpty then none
      else
        let size := digits.foldl (fun n digit => n * 10 + digitValue digit) 0
        if exponentLimit ≤ size then
          if word ≠ 0 ∧ down = false then none
          else some (.binary (Binary64.zero negative), rest)
        else finish (if down then power - size else power + size) rest
    else finish power text

def readFraction (negative : Bool) (word dropped : Nat) (text : List Char) :
    Option (Tree × List Char) :=
  match text with
  | '.' :: rest =>
    let (digits, rest) := spanDigits rest
    if digits.isEmpty then none
    else
      let (longer, ignored) := accumulate word digits
      readExponent negative longer ((dropped : Int) - (digits.length - ignored : Nat)) rest
  | _ => readExponent negative word dropped text

def readNumeral (negative : Bool) (text : List Char) : Option (Tree × List Char) :=
  let (digits, rest) := spanDigits text
  match digits with
  | [] => none
  | '0' :: _ :: _ => none
  | _ =>
    let (word, dropped) := accumulate 0 digits
    let plain := match rest with
      | c :: _ => !(c == '.' || c == 'e' || c == 'E')
      | [] => true
    if plain && dropped == 0 then
      if !negative then some (.integer word, rest)
      else if word = 0 then some (.binary (Binary64.zero true), rest)
      else if 2 * word ≤ wordLimit then some (.integer (-(word : Int)), rest)
      else (Binary64.ofNat? true word).map fun x => (.binary x, rest)
    else readFraction negative word dropped rest

end AnnotatedApi.Json
