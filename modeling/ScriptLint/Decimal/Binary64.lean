/-!
The binary numbers of 53 digits, as whole multiples of powers of two, and the one nearest to a
decimal number.
-/

namespace ScriptLint

/-- The value `mantissa · 2 ^ exponent`. -/
structure Binary64 where
  mantissa : Nat
  exponent : Int
  deriving DecidableEq, Repr

namespace Binary64

def minExponent : Int := -1074

/-- A quotient rounded to the nearest whole number; a half goes to the even neighbor. -/
def roundHalfEven (num den : Nat) : Nat :=
  let q := num / den
  let r := num % den
  if 2 * r < den then q
  else if den < 2 * r then q + 1
  else if q % 2 = 0 then q else q + 1

/-- A quotient times a power of two, rounded to the nearest whole number. -/
def roundScaled (num den : Nat) (exponent : Int) : Nat :=
  roundHalfEven (num * Nat.pow 2 exponent.toNat) (den * Nat.pow 2 (-exponent).toNat)

/-- The number nearest to a positive quotient. With `exponent` one too small the mantissa has a
digit too many, and the next exponent is the right one. -/
def ofQuotient (num den : Nat) : Binary64 :=
  let exponent := max minExponent ((num.log2 : Int) - den.log2 - 53)
  let mantissa := roundScaled num den (-exponent)
  if mantissa < Nat.pow 2 53 then ⟨mantissa, exponent⟩
  else
    let mantissa := roundScaled num den (-(exponent + 1))
    if mantissa < Nat.pow 2 53 then ⟨mantissa, exponent + 1⟩ else ⟨mantissa / 2, exponent + 2⟩

def overflows (b : Binary64) : Bool :=
  decide (1024 < (b.mantissa.log2 : Int) + 1 + b.exponent)

/-- The number nearest to `digits · 10 ^ exponent`, if a finite one is near enough. A number with
more than 310 digits before the point is too large whatever they are, and one with more than 330
zeros after the point is nearest to zero. -/
def ofDecimal? (digits : Nat) (exponent : Int) : Option Binary64 :=
  let places := (Nat.log2 digits : Int) * 3 / 10 + exponent
  if digits = 0 || places < -330 then some ⟨0, 0⟩
  else if 310 < places then none
  else
    let b := ofQuotient (digits * Nat.pow 10 exponent.toNat) (Nat.pow 10 (-exponent).toNat)
    if b.overflows then none else some b

end Binary64

end ScriptLint
