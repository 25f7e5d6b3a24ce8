import ScriptLint.Glob.Basic

/-!
Matching paths. The flags of a text, one more than it has bytes, say at which places a match of the
pattern read so far may end; each piece of a pattern turns flags into flags.
-/

namespace ScriptLint.Glob

/-- The places one byte further on, where the byte passed over satisfies `p`. -/
def passByte (p : UInt8 → Bool) : (arrived : Bool) → List UInt8 → List Bool → List Bool
  | arrived, b :: text, here :: flags => arrived :: passByte p (here && p b) text flags
  | arrived, _, _ => [arrived]

/-- The places reached by passing over the bytes one after the other. -/
def passBytes (text : List UInt8) : List UInt8 → List Bool → List Bool
  | [], flags => flags
  | b :: bytes, flags => passBytes text bytes (passByte (· == b) false text flags)

/-- Every place at or after a flagged one. -/
def spread : (seen : Bool) → List Bool → List Bool
  | _, [] => []
  | seen, flag :: flags => (seen || flag) :: spread (seen || flag) flags

def union : List Bool → List Bool → List Bool :=
  List.zipWith (· || ·)

/-- Whether a byte lies in a range of characters. The ends of a range that take several bytes count
byte by byte: the range runs from the last byte of the first end to the first byte of the last one,
and the other bytes stand for themselves. -/
def inRange (b : UInt8) (range : Char × Char) : Bool :=
  let first := String.utf8EncodeChar range.1
  let last := String.utf8EncodeChar range.2
  if range.1 = range.2 then first.contains b
  else
    first.dropLast.contains b || last.tail.contains b ||
      match first.getLast?, last.head? with
      | some lo, some hi => lo ≤ b && b ≤ hi
      | _, _ => false

/-- The places reached by a pattern from the flagged ones. -/
def reach (text : List UInt8) : Glob → List Bool → List Bool
  | .empty, flags => flags
  | .literal c, flags => passBytes text (String.utf8EncodeChar c) flags
  | .any, flags => passByte (fun _ => true) false text flags
  | .star, flags => spread false flags
  | .deepStart, flags => union flags (passBytes text [0x2f] (spread false flags))
  | .deepEnd, flags => spread false (passBytes text [0x2f] flags)
  | .deepMiddle, flags =>
    let slash := passBytes text [0x2f] flags
    union slash (passBytes text [0x2f] (spread false slash))
  | .oneOf negated ranges, flags =>
    passByte (fun b => ranges.any (inRange b) != negated) false text flags
  | .append first second, flags => reach text second (reach text first flags)
  | .either first second, flags => union (reach text first flags) (reach text second flags)

def isMatch (g : Glob) (path : String) : Bool :=
  let text := path.toUTF8.toList
  (reach text g (true :: text.map fun _ => false)).getLast? == some true

end ScriptLint.Glob
