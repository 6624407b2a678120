/-!
# Finite double-precision numbers

A finite binary64 number is a sign, a whole mantissa below `2 ^ 53` and a power
of two from `-1074` to `971`.  The mantissa has its top bit set unless the
exponent is the least one, so every number has one representation.  Quotients
of whole numbers are rounded to the nearest such number, halves to the even
mantissa; a quotient past the greatest one has no result.
-/

set_option autoImplicit false

namespace AnnotatedApi

/-- The number `± mantissa · 2 ^ exponent`. -/
structure Binary64 where
  negative : Bool
  mantissa : Nat
  exponent : Int
deriving DecidableEq, Repr

namespace Binary64

/-- The exponent of the numbers that are not normal. -/
def leastExponent : Int := -1074

def greatestExponent : Int := 971

/-- The quotient of two whole numbers, rounded to the nearest whole number, halves to even. -/
def roundQuotient (numerator denominator : Nat) : Nat :=
  let quotient := numerator / denominator
  let rest := 2 * (numerator % denominator)
  if rest < denominator then quotient
  else if denominator < rest then quotient + 1
  else quotient + quotient % 2

/-- The power of a base for an exponent that is not negative, and one for others. -/
def power (base : Nat) (exponent : Int) : Nat := Nat.pow base exponent.toNat

def leastNormal : Nat := 4503599627370496

/-- The exponent under which the quotient has a mantissa of fifty-three bits,
or the least one if there the mantissa is shorter. -/
def exponentOf (numerator denominator : Nat) : Int :=
  let guess : Int := (numerator.log2 : Int) - denominator.log2 - 52
  let fits := denominator * power 2 guess * leastNormal ≤ numerator * power 2 (-guess)
  max leastExponent (if fits then guess else guess - 1)

def zero (negative : Bool) : Binary64 := ⟨negative, 0, leastExponent⟩

/-- The number nearest to `± numerator / denominator`, if there is a finite one. -/
def ofQuotient (negative : Bool) (numerator denominator : Nat) : Option Binary64 :=
  if numerator = 0 then some (zero negative)
  else
    let exponent := exponentOf numerator denominator
    let mantissa := roundQuotient (numerator * power 2 (-exponent)) (denominator * power 2 exponent)
    let (mantissa, exponent) :=
      if mantissa = 2 * leastNormal then (leastNormal, exponent + 1) else (mantissa, exponent)
    if greatestExponent < exponent then none else some ⟨negative, mantissa, exponent⟩

def ofNat? (negative : Bool) (magnitude : Nat) : Option Binary64 := ofQuotient negative magnitude 1

def isZero (x : Binary64) : Bool := x.mantissa == 0

def mul? (x y : Binary64) : Option Binary64 :=
  let exponent := x.exponent + y.exponent
  ofQuotient (x.negative != y.negative) (x.mantissa * y.mantissa * power 2 exponent) (power 2 (-exponent))

def div? (x y : Binary64) : Option Binary64 :=
  let exponent := x.exponent - y.exponent
  ofQuotient (x.negative != y.negative) (x.mantissa * power 2 exponent) (y.mantissa * power 2 (-exponent))

/-- The number nearest to `± digits · 10 ^ exponent`.  Decimals far outside the
range are settled by their number of digits, so no great power is computed. -/
def ofDecimal? (negative : Bool) (digits : Nat) (exponent : Int) : Option Binary64 :=
  let bits : Int := digits.log2
  if digits = 0 then some (zero negative)
  else if 1100 < bits + exponent * 3 ∧ 0 ≤ exponent then none
  else if bits + exponent * 3 < -1200 ∧ exponent < 0 then some (zero negative)
  else ofQuotient negative (digits * power 10 exponent) (power 10 (-exponent))

/-- The power of ten nearest to `10 ^ exponent`; past the range, the greatest one in it. -/
def powerOfTen (exponent : Nat) : Binary64 :=
  (ofQuotient false (Nat.pow 10 (min exponent 308)) 1).getD (zero false)

end Binary64
end AnnotatedApi
