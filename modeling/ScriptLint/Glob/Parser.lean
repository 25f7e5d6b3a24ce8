import ScriptLint.Glob.Basic

/-!
Reading patterns. Outside classes a backslash takes the next character literally; braces hold
alternatives and may nest; two stars are special where they make up a whole segment.
-/

namespace ScriptLint.Glob

/-- A group of alternatives that is open, or the whole pattern: the branches that are complete and
the pieces of the current one, each in reverse order. -/
structure Frame where
  branches : List (List Glob) := []
  pieces : List Glob := []

namespace Frame

def push (f : Frame) (g : Glob) : Frame :=
  { f with pieces := g :: f.pieces }

/-- Ends the current branch and begins the next one. -/
def nextBranch (f : Frame) : Frame :=
  { branches := f.pieces :: f.branches, pieces := [] }

def toGlob (f : Frame) : Glob :=
  choice ((f.pieces :: f.branches).reverse.map fun pieces => sequence pieces.reverse)

end Frame

/-- The frames that are open: the innermost one, and those around it. -/
structure Frames where
  top : Frame := {}
  outer : List Frame := []

namespace Frames

def push (s : Frames) (g : Glob) : Frames :=
  { s with top := s.top.push g }

def inGroup (s : Frames) : Bool :=
  !s.outer.isEmpty

/-- Two stars that make up no whole segment. -/
def pushStars (s : Frames) : Frames :=
  (s.push .star).push .star

/-- Replaces the piece before two stars, which is the slash or another pair of stars, by the piece
that stands for both. -/
def mergeDeep (s : Frames) (atEnd : Bool) : Frames :=
  match s.top.pieces with
  | .deepStart :: _ => s
  | .deepEnd :: _ => s
  | _ :: pieces =>
    { s with top := { s.top with pieces := (if atEnd then .deepEnd else .deepMiddle) :: pieces } }
  | [] => s

end Frames

/-- The ranges of a class so far, latest first, and whether a dash after the latest one waits for
the other end. -/
structure Class where
  negated : Bool
  ranges : List (Char × Char) := []
  inRange : Bool := false

namespace Class

/-- Closes the latest range with its other end. -/
def close (cls : Class) (last : Char) : Except ErrorKind Class :=
  match cls.ranges with
  | (first, _) :: ranges =>
    if last < first then .error (.invalidRange first last)
    else .ok { cls with ranges := (first, last) :: ranges, inRange := false }
  | [] => .ok { cls with ranges := [(last, last)], inRange := false }

/-- A character of the class other than a closing bracket. -/
def add (cls : Class) (c : Char) : Except ErrorKind Class :=
  if cls.inRange then cls.close c
  else if c = '-' && !cls.ranges.isEmpty then .ok { cls with inRange := true }
  else .ok { cls with ranges := (c, c) :: cls.ranges }

/-- The complete class; a dash that waits for another end stands for itself. -/
def toGlob (cls : Class) : Glob :=
  let ranges := if cls.inRange then ('-', '-') :: cls.ranges else cls.ranges
  .oneOf cls.negated ranges.reverse

end Class

/-- Reads a class up to its closing bracket. A bracket or dash that comes first stands for
itself. -/
def readClass (cls : Class) (first : Bool) : List Char → Except ErrorKind (Glob × List Char)
  | [] => .error .unclosedClass
  | c :: s =>
    if c = ']' && !first then .ok (cls.toGlob, s)
    else match cls.add c with
      | .ok cls => readClass cls false s
      | .error e => .error e

def readNewClass : List Char → Except ErrorKind (Glob × List Char)
  | '!' :: s => readClass { negated := true } true s
  | '^' :: s => readClass { negated := true } true s
  | s => readClass { negated := false } true s

theorem length_readClass {cls : Class} {first : Bool} {s rest : List Char} {g : Glob}
    (h : readClass cls first s = .ok (g, rest)) : rest.length < s.length := by
  induction s generalizing cls first with
  | nil => simp [readClass] at h
  | cons c s ih =>
    rw [readClass] at h
    split at h
    · simp only [Except.ok.injEq, Prod.mk.injEq] at h
      simp [h.2]
    · split at h
      · exact Nat.lt_succ_of_lt (ih h)
      · simp at h

theorem length_readNewClass {s rest : List Char} {g : Glob}
    (h : readNewClass s = .ok (g, rest)) : rest.length < s.length := by
  unfold readNewClass at h
  split at h
  · exact Nat.lt_succ_of_lt (length_readClass h)
  · exact Nat.lt_succ_of_lt (length_readClass h)
  · exact length_readClass h

/-- What two stars stand for, given the character before them and the text after them. Gives the
frames, and whether the slash after the stars belongs to them. -/
def readStars (prev : Option Char) (frames : Frames) (rest : List Char) : Frames × Bool :=
  if frames.top.pieces.isEmpty then
    match rest.head? with
    | none => (frames.push .deepStart, false)
    | some '/' => (frames.push .deepStart, true)
    | some _ => (frames.pushStars, false)
  else if prev != some '/' && !(frames.inGroup && (prev == some ',' || prev == some '\x7b')) then
    (frames.pushStars, false)
  else
    match rest.head? with
    | none => (frames.mergeDeep true, false)
    | some '/' => (frames.mergeDeep false, true)
    | some c =>
      if frames.inGroup && (c == ',' || c == '\x7d') then (frames.mergeDeep true, false)
      else (frames.pushStars, false)

def readFrom (prev : Option Char) (frames : Frames) (s : List Char) : Except ErrorKind Glob :=
  match s with
  | [] => if frames.inGroup then .error .unclosedAlternates else .ok frames.top.toGlob
  | '?' :: s => readFrom (some '?') (frames.push .any) s
  | '*' :: '*' :: s =>
    match readStars prev frames s, s with
    | (frames, true), c :: s => readFrom (some c) frames s
    | (frames, _), s => readFrom (some '*') frames s
  | '*' :: s => readFrom (some '*') (frames.push .star) s
  | '[' :: s =>
    match h : readNewClass s with
    | .ok (g, rest) =>
      have := length_readNewClass h
      readFrom (some ']') (frames.push g) rest
    | .error e => .error e
  | '\x7b' :: s => readFrom (some '\x7b') { top := {}, outer := frames.top :: frames.outer } s
  | '\x7d' :: s =>
    match frames.outer with
    | [] => .error .unopenedAlternates
    | f :: outer =>
      readFrom (some '\x7d') { top := f.push frames.top.toGlob, outer } s
  | ',' :: s =>
    if frames.inGroup then readFrom (some ',') { frames with top := frames.top.nextBranch } s
    else readFrom (some ',') (frames.push (.literal ',')) s
  | '\\' :: [] => .error .danglingEscape
  | '\\' :: c :: s => readFrom (some c) (frames.push (.literal c)) s
  | c :: s => readFrom (some c) (frames.push (.literal c)) s
termination_by s.length

/-- Reads a pattern. A pattern of two stars only, with or without a slash after them, matches
everything. -/
def ofPattern (pattern : String) : Except Error Glob :=
  match readFrom none {} pattern.toList with
  | .ok .deepStart => .ok .star
  | .ok g => .ok g
  | .error kind => .error ⟨pattern, kind⟩

end ScriptLint.Glob
