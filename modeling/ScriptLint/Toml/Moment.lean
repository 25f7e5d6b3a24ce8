import ScriptLint.Decimal.Natural

/-!
Dates and times: a date, a time of day, or both, the latter with or without an offset from universal
time.
-/

namespace ScriptLint.Toml

/-- A number of exactly so many digits, and the rest. -/
def fixedNumber? (count : Nat) (s : List Char) : Option (Nat × List Char) :=
  let ds := s.take count
  if ds.length = count && ds.all Char.isDigit then some (ofDecimal ds, s.drop count) else none

def expect? (c : Char) : List Char → Option (List Char)
  | [] => none
  | d :: s => if d = c then some s else none

def isLeapYear (year : Nat) : Bool :=
  year % 4 == 0 && (year % 100 != 0 || year % 400 == 0)

def daysInMonth (year month : Nat) : Nat :=
  match month with
  | 4 | 6 | 9 | 11 => 30
  | 2 => if isLeapYear year then 29 else 28
  | _ => 31

/-- The text of a number with zeros in front up to a width. -/
def padded (width n : Nat) : List Char :=
  let ds := decimal n
  List.replicate (width - ds.length) '0' ++ ds

def date? (s : List Char) : Option (List Char × List Char) := do
  let (year, s) ← fixedNumber? 4 s
  let (month, s) ← fixedNumber? 2 (← expect? '-' s)
  let (day, s) ← fixedNumber? 2 (← expect? '-' s)
  if 1 ≤ month && month ≤ 12 && 1 ≤ day && day ≤ daysInMonth year month then
    return (padded 4 year ++ '-' :: padded 2 month ++ '-' :: padded 2 day, s)
  else none

/-- The fraction of a second to nine places, without zeros at its end. -/
def fraction? : List Char → Option (List Char × List Char)
  | '.' :: s =>
    let ds := s.takeWhile Char.isDigit
    let kept := ((ds.take 9).reverse.dropWhile (· == '0')).reverse
    if ds.isEmpty then none
    else some (if kept.isEmpty then [] else '.' :: kept, s.dropWhile Char.isDigit)
  | s => some ([], s)

def seconds? : List Char → Option (List Char × List Char)
  | ':' :: s => do
    let (second, s) ← fixedNumber? 2 s
    let (fraction, s) ← fraction? s
    if second ≤ 60 then return (':' :: padded 2 second ++ fraction, s) else none
  | s => some ([], s)

def time? (s : List Char) : Option (List Char × List Char) := do
  let (hour, s) ← fixedNumber? 2 s
  let (minute, s) ← fixedNumber? 2 (← expect? ':' s)
  let (seconds, s) ← seconds? s
  if hour ≤ 23 && minute ≤ 59 then
    return (padded 2 hour ++ ':' :: padded 2 minute ++ seconds, s)
  else none

/-- The offset at the end of a date with a time, in standard form. -/
def offset? : List Char → Option (List Char)
  | [] => some []
  | ['Z'] | ['z'] => some ['Z']
  | sign :: s => do
    let (hours, s) ← fixedNumber? 2 s
    let (minutes, s) ← fixedNumber? 2 (← expect? ':' s)
    if (sign = '+' || sign = '-') && hours ≤ 23 && minutes ≤ 59 && s.isEmpty then
      return sign :: padded 2 hours ++ ':' :: padded 2 minutes
    else none

/-- A date, a time or both in standard form. -/
def moment? (s : List Char) : Option (List Char) :=
  match date? s with
  | some (date, []) => some date
  | some (date, c :: s) =>
    if c = 'T' || c = 't' || c = ' ' then do
      let (time, s) ← time? s
      let offset ← offset? s
      return date ++ 'T' :: time ++ offset
    else none
  | none =>
    match time? s with
    | some (time, []) => some time
    | _ => none

def isDate (s : List Char) : Bool :=
  (date? s).any fun (_, rest) => rest.isEmpty

end ScriptLint.Toml
