import ScriptLint.Decimal.Binary64
import ScriptLint.Decimal.Natural

/-!
The shortest decimal number that reads back as a given binary one: a multiple of the largest power
of ten that has a multiple among the numbers nearest to the binary one, and of those multiples the
nearest.
-/

namespace ScriptLint.Binary64

/-- The bounds of the numbers that are nearest to a number, and the number itself, all in units of a
quarter of its last binary digit. The numbers below a power of two lie closer together. -/
def neighborhood (b : Binary64) : Nat × Nat × Nat :=
  let low := if b.mantissa = Nat.pow 2 52 && minExponent < b.exponent then 4 * b.mantissa - 1 else 4
    * b.mantissa - 2
  (low, 4 * b.mantissa, 4 * b.mantissa + 2)

/-- The multiple of `10 ^ place` that is nearest to the number, if it reads back. The bounds read
back as the number if its mantissa is even. -/
def multipleOf? (b : Binary64) (place : Int) : Option Nat :=
  let (low, middle, high) := b.neighborhood
  let scale := Nat.pow 2 (b.exponent - 2).toNat * Nat.pow 10 (-place).toNat
  let unit := Nat.pow 2 (2 - b.exponent).toNat * Nat.pow 10 place.toNat
  let readsBack (c : Nat) : Bool :=
    if b.mantissa % 2 = 0 then low * scale ≤ c * unit && c * unit ≤ high * scale
    else low * scale < c * unit && c * unit < high * scale
  let below := middle * scale / unit
  let nearer :=
    if 2 * (middle * scale % unit) < unit then [below, below + 1] else [below + 1, below]
  nearer.find? readsBack

/-- Tries places from `place` downwards. -/
def shortestFrom (b : Binary64) (place : Int) : (tries : Nat) → Nat × Int
  | 0 => (0, 0)
  | n + 1 =>
    match b.multipleOf? place with
    | some c => (c, place)
    | none => b.shortestFrom (place - 1) n

/-- The digits and the power of ten of the shortest decimal number for a number other than zero. -/
def shortest (b : Binary64) : Nat × Int :=
  b.shortestFrom 309 640

/-- The text of `digits · 10 ^ place` in positional notation, with at least one digit on either side
of the point. -/
def positional (digits : Nat) (place : Int) : List Char :=
  let shown := decimal digits
  let places := (-place).toNat
  if 0 ≤ place then shown ++ List.replicate place.toNat '0' ++ ['.', '0']
  else
    let padded := List.replicate (places + 1 - shown.length) '0' ++ shown
    let whole := padded.length - places
    padded.take whole ++ '.' :: padded.drop whole

def toText (b : Binary64) : List Char :=
  if b.mantissa = 0 then ['0', '.', '0']
  else
    let (digits, place) := b.shortest
    positional digits place

end ScriptLint.Binary64
