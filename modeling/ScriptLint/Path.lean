import ScriptLint.Text.Utf8

/-!
Paths as text with `/` between segments, and their reading as components. Repeated slashes, `.`
segments after the first one and trailing slashes do not show in the components.
-/

namespace ScriptLint.Path

/-- The segments between the slashes of a text; there is always at least one. -/
def splitSlash : List Char → List (List Char)
  | [] => [[]]
  | '/' :: s => [] :: splitSlash s
  | c :: s =>
    match splitSlash s with
    | [] => [[c]]
    | seg :: segs => (c :: seg) :: segs

/-- Segments with a slash between neighbours. -/
def joinSlash : List (List Char) → List Char
  | [] => []
  | [seg] => seg
  | seg :: segs => seg ++ '/' :: joinSlash segs

inductive Component where
  /-- The root directory, at the start of an absolute path. -/
  | root
  /-- A `.` at the start of a relative path. -/
  | current
  /-- A `..` anywhere. -/
  | parent
  | name (text : List Char)
  deriving DecidableEq, Repr

/-- How a path begins. -/
inductive Lead where
  | root
  | current
  | plain
  deriving DecidableEq, Repr

/-- A path taken apart: how it begins, and the segments after that. -/
structure Parts where
  lead : Lead
  body : List (List Char)
  deriving DecidableEq, Repr

/-- A segment that names no component: it is empty or `.`. -/
def isFiller (seg : List Char) : Bool :=
  seg.isEmpty || seg == ['.']

/-- The component that a segment names. -/
def component? (seg : List Char) : Option Component :=
  if isFiller seg then none
  else if seg == ['.', '.'] then some .parent
  else some (.name seg)

def Parts.ofText : List Char → Parts
  | [] => ⟨.plain, []⟩
  | '/' :: s => ⟨.root, splitSlash s⟩
  | s =>
    match splitSlash s with
    | ['.'] :: body => ⟨.current, body⟩
    | body => ⟨.plain, body⟩

/-- The text of a path from its parts. -/
def Parts.toText (p : Parts) : List Char :=
  match p.lead, p.body with
  | .root, body => '/' :: joinSlash body
  | .current, [] => ['.']
  | .current, body => '.' :: '/' :: joinSlash body
  | .plain, body => joinSlash body

/-- The component that a path begins with, apart from its body. -/
def Lead.components : Lead → List Component
  | .root => [.root]
  | .current => [.current]
  | .plain => []

def Parts.components (p : Parts) : List Component :=
  p.lead.components ++ p.body.filterMap component?

/-- Segments without the fillers at the end. -/
def trimFillers (segs : List (List Char)) : List (List Char) :=
  (segs.reverse.dropWhile isFiller).reverse

/-- Segments without the first `n` components and the fillers among them. -/
def dropComponents : Nat → List (List Char) → List (List Char)
  | 0, segs => segs
  | _ + 1, [] => []
  | n + 1, seg :: segs =>
    if isFiller seg then dropComponents (n + 1) segs else dropComponents n segs

/-- The path below `base`, if the components of `base` are the first ones of this path. -/
def Parts.below? (p base : Parts) : Option (List Char) :=
  let n := base.components.length
  if !base.components.isPrefixOf p.components then none
  else if n = 0 then some (Parts.toText { p with body := trimFillers p.body })
  else
    let body := dropComponents (n - p.lead.components.length) p.body
    some (joinSlash (trimFillers (body.dropWhile isFiller)))

/-- The path without its last component, unless that is the root or there is none. -/
def Parts.parent? (p : Parts) : Option (List Char) :=
  match trimFillers p.body with
  | [] => if p.lead = .current then some [] else none
  | seg :: segs => some (Parts.toText { p with body := trimFillers (seg :: segs).dropLast })

def components (path : String) : List Component :=
  (Parts.ofText path.toList).components

def isAbsolute (path : String) : Bool :=
  path.toList.head? == some '/'

def fileName? (path : String) : Option (List Char) :=
  match (components path).getLast? with
  | some (.name text) => some text
  | _ => none

/-- What follows the last dot of a file name. A name without a dot, or whose only dot comes first,
has no extension. -/
def nameExtension? (name : List Char) : Option (List Char) :=
  let reversed := name.reverse
  match reversed.dropWhile (· != '.') with
  | [] | ['.'] => none
  | _ => some (reversed.takeWhile (· != '.')).reverse

def extension? (path : String) : Option String :=
  ((fileName? path).bind nameExtension?).map String.ofList

def extensionOrEmpty (path : String) : String :=
  (extension? path).getD ""

/-- The path without its last component. -/
def parent? (path : String) : Option String :=
  (Parts.ofText path.toList).parent?.map String.ofList

/-- `path` seen from the directory `base`: an absolute path stands for itself. -/
def join (base path : String) : String :=
  if isAbsolute path then path
  else if base.toList = [] then path
  else if base.toList.getLast? == some '/' then base ++ path
  else base ++ "/" ++ path

def normalizeSeparators (text : String) : String :=
  String.ofList (text.toList.map fun c => if c = '\\' then '/' else c)

/-- The path with these bytes, as a text with one character for each byte. Slashes and dots have
bytes of their own, so the text has the parts of the path. -/
def ofBytes (bytes : ByteArray) : String :=
  String.ofList (bytes.data.toList.map Char.ofUInt8)

/-- The bytes of a text that has one character for each byte. -/
def toBytes (s : List Char) : ByteArray :=
  ⟨(s.map Char.toUInt8).toArray⟩

/-- What is left of a path below the root, or the path itself if it does not lie there. -/
def belowRoot (path : String) (root : Option String) : List Char :=
  let below := root.bind fun r => (Parts.ofText path.toList).below? (Parts.ofText r.toList)
  below.getD path.toList

/-- The bytes that reports show of a path: what is left of it below `root`, or all of it. -/
def shownBytes (path : ByteArray) (root : Option ByteArray) : ByteArray :=
  toBytes (belowRoot (ofBytes path) (root.map ofBytes))

/-- How reports show a path: relative to `root` if it lies below it, with slashes only. The root
itself is shown as `.`, and bytes that are not UTF-8 as replacement characters. -/
def displayBytes (path : ByteArray) (root : Option ByteArray) : String :=
  let shown := normalizeSeparators (String.ofList (Utf8.decodeLossy (shownBytes path root)))
  if shown = "" then "." else shown

/-- How reports show a path that is a text. -/
def display (path : String) (root : Option String) : String :=
  displayBytes path.toUTF8 (root.map String.toUTF8)

theorem splitSlash_ne_nil (s : List Char) : splitSlash s ≠ [] := by
  fun_cases splitSlash s <;> simp_all

/-- The segments of a text with a slash in it are those before the slash, and those after it. -/
theorem splitSlash_append (s s' : List Char) :
    splitSlash (s ++ '/' :: s') = splitSlash s ++ splitSlash s' := by
  fun_induction splitSlash s with
  | case1 => rfl
  | case2 s ih => rw [List.cons_append, splitSlash, ih]; rfl
  | case3 c s _ hs => exact absurd hs (splitSlash_ne_nil s)
  | case4 c s hc seg segs hs ih =>
    rw [hs, List.cons_append] at ih
    rw [List.cons_append, splitSlash, ih]
    · rfl
    · exact hc

theorem joinSlash_splitSlash (s : List Char) : joinSlash (splitSlash s) = s := by
  fun_induction splitSlash s with
  | case1 => rfl
  | case2 s ih =>
    cases h : splitSlash s with
    | nil => exact absurd h (splitSlash_ne_nil s)
    | cons seg segs => rw [h] at ih; simp [joinSlash, ih]
  | case3 c s _ h => exact absurd h (splitSlash_ne_nil s)
  | case4 c s _ seg segs h ih =>
    rw [h] at ih
    cases segs with
    | nil => simp_all [joinSlash]
    | cons seg' segs' => simp_all [joinSlash]

theorem noSlash_of_mem_splitSlash {s : List Char} : ∀ name ∈ splitSlash s, '/' ∉ name := by
  fun_induction splitSlash s with
  | case1 => simp
  | case2 s ih =>
    intro name h
    rcases List.mem_cons.mp h with rfl | h
    · simp
    · exact ih name h
  | case3 c s hc hs => exact absurd hs (splitSlash_ne_nil s)
  | case4 c s hc seg segs hs ih =>
    rw [hs] at ih
    intro name h
    rcases List.mem_cons.mp h with rfl | h
    · simp only [List.mem_cons, not_or]
      exact ⟨fun e => hc e.symm, ih seg List.mem_cons_self⟩
    · exact ih name (List.mem_cons_of_mem seg h)

theorem mem_of_mem_splitSlash {s : List Char} : ∀ name ∈ splitSlash s, ∀ c ∈ name, c ∈ s := by
  fun_induction splitSlash s with
  | case1 => simp
  | case2 s ih =>
    intro name h c hc
    rcases List.mem_cons.mp h with rfl | h
    · cases hc
    · exact List.mem_cons_of_mem _ (ih name h c hc)
  | case3 first s _ hs => exact absurd hs (splitSlash_ne_nil s)
  | case4 first s _ seg segs hs ih =>
    rw [hs] at ih
    intro name h c hc
    rcases List.mem_cons.mp h with rfl | h
    · rcases List.mem_cons.mp hc with rfl | hc
      · exact List.mem_cons_self
      · exact List.mem_cons_of_mem _ (ih seg List.mem_cons_self c hc)
    · exact List.mem_cons_of_mem _ (ih name (List.mem_cons_of_mem seg h) c hc)

end ScriptLint.Path
