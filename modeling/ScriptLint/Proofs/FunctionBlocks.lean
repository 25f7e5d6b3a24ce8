import ScriptLint.Proofs.FindingLines
import ScriptLint.Proofs.LineGrammar

/-!
The check of function variables, block by block. The scan keeps one open function and counts its
lines; what it reports are the blocks of lines that leak variables, each at its declaration. Main
statements: `leakingFunctions_some`, what an open function adds to a scan,
`mem_leakingFunctions_iff`, what a whole scan gives, and `localFindings_blocks`.
-/

namespace ScriptLint

/-- The lines with their numbers, counted from `n`. -/
def numberedFrom (n : Nat) (ls : List Line) : List (Nat × Line) :=
  (ls.zipIdx n).map fun (line, n) => (n, line)

theorem numberedFrom_cons (n : Nat) (line : Line) (ls : List Line) :
    numberedFrom n (line :: ls) = (n, line) :: numberedFrom (n + 1) ls := rfl

namespace Shell

/-- A declaration whose body ends on the same line: a brace is opened on it, and its last character
but blanks is a closing one. -/
def IsOneLiner (line : Line) : Prop :=
  '\x7b' ∈ trimEnd line ∧ ['\x7d'] <:+ trimEnd line

theorem isOneLiner_iff {line : Line} : isOneLiner line = true ↔ IsOneLiner line := by
  simp [isOneLiner, IsOneLiner, List.singleton_suffix_iff_getLast?_eq_some]

/-- The lines of a script as they lie around one function. -/
structure Block where
  before : List Line
  declaration : Line
  body : List Line
  closing : Line
  after : List Line

namespace Block

def lines (b : Block) : List Line :=
  b.before ++ b.declaration :: (b.body ++ b.closing :: b.after)

/-- The number of the line that declares the function. -/
def number (b : Block) : Nat :=
  b.before.length + 1

/-- The function of this name leaks variables. -/
structure Leaks (b : Block) (name : List Char) : Prop where
  declares : Declares b.declaration name
  staysOpen : ¬IsOneLiner b.declaration
  closes : trim b.closing = ['\x7d']
  /-- The body is not closed before, and no other declaration cuts it short. -/
  uninterrupted : ∀ line ∈ b.body, trim line ≠ ['\x7d'] ∧ ∀ other, ¬Declares line other
  long : 2 < b.body.length
  assigns : ∃ line ∈ b.body, AssignsVariable line
  undeclared : ∀ line ∈ b.body, ¬HasWord "local".toList line

end Block

/-! ## One body -/

/-- The body as it is when it is closed, if it is closed at all. -/
def closedBody? (body : Body) : List Line → Option Body
  | [] => none
  | line :: rest =>
    if (declaredFunction? line).isSome then none
    else if isClosing line then some body
    else closedBody? (body.add line) rest

/-- A line that neither declares a function nor closes one. -/
def IsInner (line : Line) : Prop :=
  declaredFunction? line = none ∧ isClosing line = false

theorem isInner_iff {line : Line} :
    IsInner line ↔ trim line ≠ ['\x7d'] ∧ ∀ other, ¬Declares line other := by
  rw [IsInner, Option.eq_none_iff_forall_ne_some, and_comm]
  simp [isClosing, declaredFunction?_eq_some_iff]

theorem closedBody?_eq_some_iff {body closed : Body} {ls : List Line} :
    closedBody? body ls = some closed ↔
      ∃ inner closing after, ls = inner ++ closing :: after ∧ (∀ line ∈ inner, IsInner line) ∧
        isClosing closing = true ∧ closed = inner.foldl Body.add body := by
  induction ls generalizing body with
  | nil => simp [closedBody?]
  | cons line rest ih =>
    rw [closedBody?]
    split
    · next hdeclared =>
      simp only [false_iff, reduceCtorEq]
      rintro ⟨inner, closing, after, hls, hinner, hclosing, -⟩
      -- Neither an inner line nor a closing one declares a function.
      cases inner with
      | nil =>
        cases hls
        simp [declaredFunction?_eq_none_of_isClosing hclosing] at hdeclared
      | cons first inner =>
        cases hls
        simp [(hinner line List.mem_cons_self).1] at hdeclared
    next hdeclared =>
    rw [Option.not_isSome_iff_eq_none] at hdeclared
    split
    · next hline =>
      constructor
      · rintro ⟨rfl⟩
        exact ⟨[], line, rest, rfl, by simp, hline, rfl⟩
      · rintro ⟨inner, closing, after, hls, hinner, -, rfl⟩
        cases inner with
        | nil => rfl
        | cons first inner =>
          cases hls
          simp [(hinner line List.mem_cons_self).2] at hline
    · next hline =>
      rw [ih]
      constructor
      · rintro ⟨inner, closing, after, rfl, hinner, hclosing, rfl⟩
        refine ⟨line :: inner, closing, after, rfl, ?_, hclosing, rfl⟩
        exact List.forall_mem_cons.mpr ⟨⟨hdeclared, Bool.eq_false_iff.mpr hline⟩, hinner⟩
      · rintro ⟨inner, closing, after, hls, hinner, hclosing, rfl⟩
        cases inner with
        | nil =>
          cases hls
          exact absurd hclosing hline
        | cons first inner =>
          cases hls
          exact ⟨inner, closing, after, rfl, (List.forall_mem_cons.mp hinner).2, hclosing, rfl⟩

/-- What a body has gathered from its lines. -/
theorem foldl_add (body : Body) (ls : List Line) :
    ls.foldl Body.add body =
      { body with
        lineCount := body.lineCount + ls.length
        hasLocal := body.hasLocal || ls.any mentionsLocal
        hasAssignment := body.hasAssignment || ls.any assignsVariable } := by
  induction ls generalizing body with
  | nil => simp
  | cons line ls ih =>
    rw [List.foldl_cons, ih]
    simp [Body.add, Bool.or_assoc]
    omega

theorem leaks_foldl_add_iff {name : List Char} {n : Nat} {ls : List Line} :
    (ls.foldl Body.add { name, declaredAt := n }).leaks = true ↔
      2 < ls.length ∧ (∃ line ∈ ls, AssignsVariable line) ∧
        ∀ line ∈ ls, ¬HasWord "local".toList line := by
  have hlocal (line : Line) : mentionsLocal line = true ↔ HasWord "local".toList line :=
    hasWord_iff (by decide)
  simp only [foldl_add, Body.leaks, minBodyLines, Bool.false_or, Nat.zero_add, Bool.and_eq_true,
    Bool.not_eq_true', List.any_eq_true, List.any_eq_false, decide_eq_true_eq,
      assignsVariable_iff, hlocal]
  exact ⟨fun ⟨⟨hassigns, hnone⟩, hlong⟩ => ⟨hlong, hassigns, hnone⟩,
    fun ⟨hlong, hassigns, hnone⟩ => ⟨⟨hassigns, hnone⟩, hlong⟩⟩

/-! ## A scan -/

/-- The body that a line opens. -/
def openedBody? (n : Nat) (line : Line) : Option Body :=
  (declaredFunction? line).bind fun name => if isOneLiner line then none else some
    { name, declaredAt := n }

/-- An open function adds at most one report, in front of all that is reported without it. -/
theorem leakingFunctions_some (body : Body) (n : Nat) (ls : List Line) :
    leakingFunctions (some body) (numberedFrom n ls) =
      ((closedBody? body ls).filter Body.leaks).toList ++
        leakingFunctions none (numberedFrom n ls) := by
  induction ls generalizing body n with
  | nil => rfl
  | cons line rest ih =>
    rw [numberedFrom_cons, leakingFunctions, leakingFunctions, closedBody?]
    cases hdeclared : declaredFunction? line with
    | some name => simp
    | none =>
      by_cases hclosing : isClosing line = true
      · by_cases hleaks : body.leaks = true
        · simp [hclosing, hleaks, Option.filter]
        · simp [hclosing, hleaks, Option.filter]
      · simp [hclosing, ih]

/-- The step of a scan that has no function open. -/
theorem leakingFunctions_none_cons (n : Nat) (line : Line) (rest : List Line) :
    leakingFunctions none (numberedFrom n (line :: rest)) =
      (((openedBody? n line).bind (closedBody? · rest)).filter Body.leaks).toList ++
        leakingFunctions none (numberedFrom (n + 1) rest) := by
  rw [numberedFrom_cons, leakingFunctions, openedBody?]
  cases hdeclared : declaredFunction? line with
  | none => rfl
  | some name =>
    by_cases hline : isOneLiner line = true
    · simp [hline]
    · simp [hline, leakingFunctions_some]

/-- The run of a scan: the bodies that a line opens, that are closed again, and that leak variables
then. -/
theorem mem_leakingFunctions_iff {body : Body} {n : Nat} {ls : List Line} :
    body ∈ leakingFunctions none (numberedFrom n ls) ↔
      ∃ before line rest opened, ls = before ++ line :: rest ∧
        openedBody? (n + before.length) line = some opened ∧ closedBody? opened rest = some body ∧
        body.leaks = true := by
  induction ls generalizing n with
  | nil => simp [numberedFrom, leakingFunctions]
  | cons line rest ih =>
    rw [leakingFunctions_none_cons, List.mem_append, ih]
    constructor
    · rintro (h | ⟨before, line', rest', opened, rfl, hopened, h⟩)
      · simp only [Option.mem_toList, Option.filter_eq_some_iff, Option.bind_eq_some_iff] at h
        obtain ⟨⟨opened, hopened, hclosed⟩, hleaks⟩ := h
        exact ⟨[], line, rest, opened, rfl, hopened, hclosed, hleaks⟩
      · refine ⟨line :: before, line', rest', opened, rfl, ?_, h⟩
        rw [List.length_cons, Nat.add_comm before.length 1, ← Nat.add_assoc]
        exact hopened
    · rintro ⟨before, line', rest', opened, hls, hopened, hclosed, hleaks⟩
      cases before with
      | nil =>
        cases hls
        left
        simp only [Option.mem_toList, Option.filter_eq_some_iff, Option.bind_eq_some_iff]
        exact ⟨⟨opened, hopened, hclosed⟩, hleaks⟩
      | cons first before =>
        cases hls
        right
        refine ⟨before, line', rest', opened, rfl, ?_, hclosed, hleaks⟩
        rw [List.length_cons, Nat.add_comm before.length 1, ← Nat.add_assoc] at hopened
        exact hopened

/-- The functions that a scan reports are those of the blocks that leak variables. -/
theorem exists_mem_leakingFunctions_iff {name : List Char} {number : Nat} {ls : List Line} :
    (∃ body ∈ leakingFunctions none (numbered ls), body.name = name ∧ body.declaredAt = number) ↔
      ∃ b : Block, b.lines = ls ∧ b.number = number ∧ b.Leaks name := by
  have hscan (body : Body) : body ∈ leakingFunctions none (numbered ls) ↔ _ :=
    mem_leakingFunctions_iff
  simp only [hscan]
  constructor
  · rintro ⟨body, ⟨before, line, rest, opened, rfl, hopened, hclosed, hleaks⟩, rfl, rfl⟩
    obtain ⟨name, hdeclared, hopened⟩ := Option.bind_eq_some_iff.mp hopened
    split at hopened
    · cases hopened
    next hline =>
    cases hopened
    obtain ⟨inner, closing, after, rfl, hinner, hclosing, rfl⟩ := closedBody?_eq_some_iff.mp hclosed
    obtain ⟨hlong, hassigns, hnone⟩ := leaks_foldl_add_iff.mp hleaks
    refine ⟨⟨before, line, inner, closing, after⟩, rfl, ?_, ?_⟩
    · rw [foldl_add]
      exact Nat.add_comm before.length 1
    · rw [foldl_add]
      exact {
        declares := declaredFunction?_eq_some_iff.mp hdeclared
        staysOpen := fun h => hline (isOneLiner_iff.mpr h)
        closes := beq_iff_eq.mp hclosing
        uninterrupted := fun line hm => isInner_iff.mp (hinner line hm)
        long := hlong
        assigns := hassigns
        undeclared := hnone }
  · rintro ⟨b, rfl, rfl, h⟩
    let opened : Body := { name, declaredAt := 1 + b.before.length }
    refine ⟨b.body.foldl Body.add opened, ⟨b.before, b.declaration, b.body ++ b.closing :: b.after,
      opened, rfl,
      ?_, ?_, ?_⟩, ?_, ?_⟩
    · have hline : isOneLiner b.declaration = false :=
        Bool.eq_false_iff.mpr fun hline => h.staysOpen (isOneLiner_iff.mp hline)
      simp [openedBody?, declaredFunction?_eq_some_iff.mpr h.declares, hline, opened]
    · exact closedBody?_eq_some_iff.mpr ⟨b.body, b.closing, b.after, rfl,
        fun line hm => isInner_iff.mpr (h.uninterrupted line hm), beq_iff_eq.mpr h.closes, rfl⟩
    · exact leaks_foldl_add_iff.mpr ⟨h.long, h.assigns, h.undeclared⟩
    · rw [foldl_add]
    · rw [foldl_add]
      exact Nat.add_comm 1 b.before.length

end Shell

/-- What the finding on a function says. -/
def leakMessage (name : List Char) : String :=
  "function '" ++ String.ofList name ++ "' assigns variables without declaring them local"

theorem mem_localFindings_iff {script : Script} {f : Finding} :
    f ∈ localFindings script ↔
      ∃ (b : Shell.Block) (name : List Char), b.lines = script.lines ∧ b.Leaks name ∧
        f = Check.localVariables.warn (leakMessage name) (some b.number) := by
  rw [localFindings, List.mem_map]
  constructor
  · rintro ⟨body, hbody, rfl⟩
    obtain ⟨b, hlines, hnumber, hleaks⟩ :=
      Shell.exists_mem_leakingFunctions_iff.mp ⟨body, hbody, rfl, rfl⟩
    exact ⟨b, body.name, hlines, hleaks, by rw [hnumber]; rfl⟩
  · rintro ⟨b, name, hlines, hleaks, rfl⟩
    obtain ⟨body, hbody, rfl, hnumber⟩ :=
      Shell.exists_mem_leakingFunctions_iff.mpr ⟨b, hlines, rfl, hleaks⟩
    exact ⟨body, hbody, by rw [hnumber]; rfl⟩

/-- The check of function variables warns of the functions whose lines make up a block that leaks
variables, each at its declaration and by its name. The warnings come in the order of the
declarations, with one for each. A declaration after which no closing line comes before the next
declaration is never reported. -/
theorem localFindings_blocks (script : Script) :
    (∀ f, f ∈ localFindings script ↔
      ∃ (b : Shell.Block) (name : List Char), b.lines = script.lines ∧ b.Leaks name ∧
        f = Check.localVariables.warn (leakMessage name) (some b.number)) ∧
    (∃ numbers : List Nat, numbers.Pairwise (· < ·) ∧ (localFindings script).map (·.line) =
      numbers.map some) ∧
    ∀ before declaration after, script.lines = before ++ declaration :: after →
      (∀ body closing rest, after = body ++ closing :: rest → trim closing = ['\x7d'] →
        ∃ line ∈ body, ∃ other, Shell.Declares line other) →
      ∀ f ∈ localFindings script, f.line ≠ some (before.length + 1) := by
  refine ⟨fun f => mem_localFindings_iff, ?_, ?_⟩
  · obtain ⟨numbers, hsub, hlines⟩ := lines_localFindings script
    exact ⟨numbers, (List.pairwise_lt_range' 1).sublist hsub, hlines⟩
  · intro before declaration after hlines hnever f hf hline
    obtain ⟨b, name, hb, hleaks, rfl⟩ := mem_localFindings_iff.mp hf
    have hlength : b.before.length = before.length := Nat.succ.inj (Option.some.inj hline)
    obtain ⟨-, hrest⟩ := List.append_inj (hb.trans hlines) hlength
    obtain ⟨-, hafter⟩ := List.cons.inj hrest
    obtain ⟨line, hm, other, hdeclares⟩ := hnever b.body b.closing b.after hafter.symm hleaks.closes
    exact (hleaks.uninterrupted line hm).2 other hdeclares

/-- A script with three functions, the second of which is cut short by the third. -/
def nestedScript : Script where
  path := "/a.sh"
  extension := "sh"
  text := "f() \x7b\nx=1\ny=2\nz=3\n\x7d\ng() \x7b\nx=1\nh() \x7b\nx=1\ny=2\nz=3\n\x7d\n".toList

theorem localFindings_blocks_nestedScript :
    let before := ["f() \x7b".toList, "x=1".toList, "y=2".toList, "z=3".toList, "\x7d".toList]
    let after := ["x=1".toList, "h() \x7b".toList, "x=1".toList, "y=2".toList, "z=3".toList,
      "\x7d".toList]
    nestedScript.lines = before ++ "g() \x7b".toList :: after ∧
      (∀ f ∈ localFindings nestedScript, f.line ≠ some 6) ∧
      localFindings nestedScript =
        [Check.localVariables.warn (leakMessage ['f']) (some 1),
          Check.localVariables.warn (leakMessage ['h']) (some 8)] := by
  intro before after
  have hlines : nestedScript.lines = before ++ "g() \x7b".toList :: after := by decide +kernel
  refine ⟨hlines, (localFindings_blocks nestedScript).2.2 _ _ _ hlines ?_, by decide +kernel⟩
  -- The lone brace at the end closes `h`.
  intro body closing rest hafter hclosing
  simp only [after] at hafter
  have hdeclares : Shell.Declares "h() \x7b".toList ['h'] :=
    Shell.declaredFunction?_eq_some_iff.mp (by decide)
  match body, hafter with
  | [], hafter =>
    cases hafter
    exact absurd hclosing (by decide)
  | [_], hafter =>
    cases hafter
    exact absurd hclosing (by decide)
  | _ :: line :: body, hafter =>
    injection hafter with _ hafter
    injection hafter with hline
    exact ⟨line, by simp, ['h'], hline ▸ hdeclares⟩

end ScriptLint
