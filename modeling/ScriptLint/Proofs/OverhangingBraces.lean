import ScriptLint.Proofs.FunctionBlocks

/-!
Declarations that leave a brace open. A declaration whose last character is a closing brace counts
as a whole function, even if that brace closes an expansion and the body goes on below. Main
statements: `leakingFunctions_lines`, how a scan passes one function, and
`localFindings_overhanging`, which functions below an open brace are reported.
-/

namespace ScriptLint

/-- A character that is no blank is not trimmed away. -/
theorem mem_trimEnd_of_mem {s : List Char} {c : Char} (hc : isBlank c = false) (h : c ∈ s) :
    c ∈ trimEnd s := by
  obtain ⟨trail, htrail, hs⟩ := exists_blanks_trimEnd s
  rw [hs] at h
  rcases List.mem_append.mp h with h | h
  · exact h
  · rw [htrail c h] at hc
    cases hc

namespace Shell

/-- The line opens more braces than it closes. -/
def LeavesOpen (line : Line) : Prop :=
  line.count '\x7d' < line.count '\x7b'

instance (line : Line) : Decidable (LeavesOpen line) :=
  inferInstanceAs (Decidable (_ < _))

/-- The last character of the line, but blanks, is a closing brace. -/
def EndsInBrace (line : Line) : Prop :=
  ['\x7d'] <:+ trimEnd line

instance (line : Line) : Decidable (EndsInBrace line) :=
  inferInstanceAs (Decidable (_ <:+ _))

instance (line : Line) : Decidable (AssignsVariable line) :=
  decidable_of_iff _ assignsVariable_iff

/-- A line that leaves a brace open has one, so it is taken for a whole function by its end
alone. -/
theorem LeavesOpen.isOneLiner_iff_endsInBrace {line : Line} (h : LeavesOpen line) :
    IsOneLiner line ↔ EndsInBrace line := by
  have hopen : '\x7b' ∈ line := List.count_pos_iff.mp (Nat.zero_lt_of_lt h)
  exact and_iff_right (mem_trimEnd_of_mem rfl hopen)

namespace Block

/-- The lines of the body up to the first one that is only a closing brace. -/
def inner (b : Block) : List Line :=
  b.body.takeWhile fun line => !isClosing line

/-- The function has this name. Its declaration leaves a brace open, and before the next declaration
there is a line that is only a closing brace. Between the two are more than two lines, one of which
assigns a variable and none of which has the word `local`. -/
structure Overhangs (b : Block) (name : List Char) : Prop where
  declares : Declares b.declaration name
  leavesOpen : LeavesOpen b.declaration
  closes : trim b.closing = ['\x7d']
  single : ∀ line ∈ b.body, ∀ other, ¬Declares line other
  long : 2 < b.body.length
  assigns : ∃ line ∈ b.body, AssignsVariable line
  undeclared : ∀ line ∈ b.body, ¬HasWord "local".toList line

end Block

/-! ## How a scan passes a function -/

variable {line closing : Line} {body before skipped rest after : List Line} {name : List Char}

theorem undeclared_iff : declaredFunction? line = none ↔ ∀ other, ¬Declares line other := by
  simp [Option.eq_none_iff_forall_ne_some, declaredFunction?_eq_some_iff]

/-- A declaration that leaves a brace open opens a body, unless it ends in a brace. -/
theorem LeavesOpen.openedBody?_eq (h : LeavesOpen line) (hdeclares : Declares line name) (n : Nat) :
    openedBody? n line = if EndsInBrace line then none else some { name, declaredAt := n } := by
  rw [openedBody?, declaredFunction?_eq_some_iff.mpr hdeclares, Option.bind_some]
  simp only [isOneLiner_iff, h.isOneLiner_iff_endsInBrace]

/-- What comes after the next declaration does not close a body. -/
theorem closedBody?_append_declaration (h : Declares line name) (opened : Body)
    (before rest : List Line) :
    closedBody? opened (before ++ line :: rest) = closedBody? opened before := by
  induction before generalizing opened with
  | nil => simp [closedBody?, declaredFunction?_eq_some_iff.mpr h]
  | cons first before ih => simp only [List.cons_append, closedBody?, ih]

/-- Where nothing is declared, a body is closed at the first line that can close it. -/
theorem closedBody?_append_closing (h : ∀ line ∈ body, declaredFunction? line = none)
    (hclosing : isClosing closing = true) (opened : Body) (after : List Line) :
    closedBody? opened (body ++ closing :: after) =
      some ((body.takeWhile fun line => !isClosing line).foldl Body.add opened) := by
  induction body generalizing opened with
  | nil => simp [closedBody?, hclosing, declaredFunction?_eq_none_of_isClosing hclosing]
  | cons line body ih =>
    obtain ⟨hline, hbody⟩ := List.forall_mem_cons.mp h
    by_cases hc : isClosing line = true
    · simp [closedBody?, hline, hc]
    · simp [closedBody?, hline, hc, ih hbody]

/-- A declaration divides a scan: it ends what is open before it. -/
theorem leakingFunctions_append_declaration (h : Declares line name) (n : Nat)
    (before rest : List Line) :
    leakingFunctions none (numberedFrom n (before ++ line :: rest)) =
      leakingFunctions none (numberedFrom n before) ++
        leakingFunctions none (numberedFrom (n + before.length) (line :: rest)) := by
  induction before generalizing n with
  | nil => rfl
  | cons first before ih =>
    rw [List.cons_append, leakingFunctions_none_cons, leakingFunctions_none_cons, ih]
    simp only [closedBody?_append_declaration h, List.append_assoc, List.length_cons, Nat.add_assoc,
      Nat.add_comm 1 before.length]

/-- Lines that declare nothing are passed over where nothing is open. -/
theorem leakingFunctions_skip (h : ∀ line ∈ skipped, declaredFunction? line = none) (n : Nat)
    (rest : List Line) :
    leakingFunctions none (numberedFrom n (skipped ++ rest)) =
      leakingFunctions none (numberedFrom (n + skipped.length) rest) := by
  induction skipped generalizing n with
  | nil => rfl
  | cons line skipped ih =>
    obtain ⟨hline, hskipped⟩ := List.forall_mem_cons.mp h
    rw [List.cons_append, leakingFunctions_none_cons, ih hskipped]
    simp [openedBody?, hline, Nat.add_assoc, Nat.add_comm 1]

/-- The scan of the lines around a function: what the lines before it give, the function itself if
its declaration opens it and it leaks variables, and what the lines after it give. -/
theorem leakingFunctions_lines {b : Block} (hdeclares : Declares b.declaration name)
    (hclosing : isClosing b.closing = true)
    (hsingle : ∀ line ∈ b.body, declaredFunction? line = none) :
    leakingFunctions none (numberedFrom 1 b.lines) =
      leakingFunctions none (numberedFrom 1 b.before) ++
        (((openedBody? b.number b.declaration).map fun opened =>
          b.inner.foldl Body.add opened).filter
          Body.leaks).toList ++
        leakingFunctions none (numberedFrom (b.number + b.body.length + 2) b.after) := by
  have hskip : ∀ line ∈ b.body ++ [b.closing], declaredFunction? line = none := by
    refine List.forall_mem_append.mpr ⟨hsingle, ?_⟩
    exact List.forall_mem_singleton.mpr (declaredFunction?_eq_none_of_isClosing hclosing)
  have hafter := leakingFunctions_skip hskip (b.number + 1) b.after
  rw [List.append_assoc, List.singleton_append] at hafter
  rw [Block.lines, leakingFunctions_append_declaration hdeclares, Nat.add_comm 1, ← Block.number,
    leakingFunctions_none_cons, hafter]
  cases openedBody? b.number b.declaration with
  | none => simp [Nat.add_assoc, Nat.add_comm 1]
  | some opened =>
    simp [closedBody?_append_closing hsingle hclosing, Block.inner, Nat.add_assoc, Nat.add_comm 1]

end Shell

/-! ## The check -/

/-- The findings of the check on lines that are numbered from `n`. -/
def leakFindings (n : Nat) (ls : List Line) : List Finding :=
  (Shell.leakingFunctions none (numberedFrom n ls)).map fun body =>
    Check.localVariables.warn (leakMessage body.name) (some body.declaredAt)

theorem line_of_mem_leakFindings {n : Nat} {ls : List Line} {f : Finding}
    (h : f ∈ leakFindings n ls) :
    ∃ number, f.line = some number ∧ n ≤ number ∧ number < n + ls.length := by
  obtain ⟨body, hbody, rfl⟩ := List.mem_map.mp h
  rcases Shell.declared_of_mem_leakingFunctions hbody with ⟨_, hopened, _⟩ | ⟨line, hm, _⟩
  · cases hopened
  · obtain ⟨⟨line', number⟩, hm, he⟩ := List.mem_map.mp hm
    cases he
    obtain ⟨hlow, hhigh, -⟩ := List.mem_zipIdx hm
    exact ⟨body.declaredAt, rfl, hlow, hhigh⟩

variable {script : Script} {b : Shell.Block} {name : List Char}

/-- What the check has to say about the function of a block. -/
def Shell.Block.report (b : Shell.Block) (name : List Char) : Finding :=
  Check.localVariables.warn (leakMessage name) (some b.number)

/-- A function below an open brace adds its report to what the lines around it give, unless its
declaration ends in a brace or the body is closed too early. -/
theorem localFindings_eq_append (hlines : b.lines = script.lines) (h : b.Overhangs name) :
    localFindings script =
      leakFindings 1 b.before ++
        (if ¬Shell.EndsInBrace b.declaration ∧ 2 < b.inner.length ∧
          ∃ line ∈ b.inner, Shell.AssignsVariable line
          then [b.report name] else []) ++
        leakFindings (b.number + b.body.length + 2) b.after := by
  have hclosing : Shell.isClosing b.closing = true := beq_iff_eq.mpr h.closes
  have hsingle : ∀ line ∈ b.body, Shell.declaredFunction? line = none :=
    fun line hm => Shell.undeclared_iff.mpr (h.single line hm)
  have hnone : ∀ line ∈ b.inner, ¬HasWord "local".toList line :=
    fun line hm => h.undeclared line ((List.takeWhile_sublist _).subset hm)
  have hscan := Shell.leakingFunctions_lines h.declares hclosing hsingle
  rw [h.leavesOpen.openedBody?_eq h.declares] at hscan
  show leakFindings 1 script.lines = _
  rw [← hlines, leakFindings, hscan, List.map_append, List.map_append]
  congr 2
  by_cases hends : Shell.EndsInBrace b.declaration
  · simp [hends]
  let opened : Shell.Body := { name, declaredAt := b.number }
  have hleaks : (b.inner.foldl Shell.Body.add opened).leaks = true ↔
      2 < b.inner.length ∧ ∃ line ∈ b.inner, Shell.AssignsVariable line := by
    rw [Shell.leaks_foldl_add_iff, ← and_assoc]
    exact and_iff_left hnone
  rw [if_neg hends, Option.map_some, Option.filter_some]
  by_cases hinner : 2 < b.inner.length ∧ ∃ line ∈ b.inner, Shell.AssignsVariable line
  · rw [if_pos (hleaks.mpr hinner), if_pos ⟨hends, hinner⟩, Shell.foldl_add]
    rfl
  · rw [if_neg (mt hleaks.mp hinner), if_neg fun h => hinner h.2]
    rfl

/-- The check and functions whose declaration leaves a brace open. The function is reported at its
declaration exactly if the last character of the declaration, but blanks, is no closing brace, and
the lines up to the first lone brace are more than two and assign a variable. If no lone brace comes
before the one that closes the block, the end of the declaration decides alone. The other findings
are those of the lines before the function and of those after it. -/
theorem localFindings_overhanging (hlines : b.lines = script.lines) (h : b.Overhangs name) :
    (b.report name ∈ localFindings script ↔
      ¬Shell.EndsInBrace b.declaration ∧ 2 < b.inner.length ∧
        ∃ line ∈ b.inner, Shell.AssignsVariable line) ∧
    ((∀ line ∈ b.body, trim line ≠ ['\x7d']) →
      (b.report name ∈ localFindings script ↔ ¬Shell.EndsInBrace b.declaration)) ∧
    (localFindings script).filter (· ≠ b.report name) =
      leakFindings 1 b.before ++ leakFindings (b.number + b.body.length + 2) b.after := by
  have hbefore : ∀ f ∈ leakFindings 1 b.before, f ≠ b.report name := by
    rintro f hf rfl
    obtain ⟨_, hline, -, hhigh⟩ := line_of_mem_leakFindings hf
    cases hline
    rw [Shell.Block.number, Nat.add_comm] at hhigh
    exact Nat.lt_irrefl _ hhigh
  have hafter : ∀ f ∈ leakFindings (b.number + b.body.length + 2) b.after, f ≠ b.report name := by
    rintro f hf rfl
    obtain ⟨_, hline, hlow, -⟩ := line_of_mem_leakFindings hf
    cases hline
    omega
  have hmem : b.report name ∈ localFindings script ↔
      ¬Shell.EndsInBrace b.declaration ∧ 2 < b.inner.length ∧
        ∃ line ∈ b.inner, Shell.AssignsVariable line := by
    rw [localFindings_eq_append hlines h, List.mem_append, List.mem_append,
      or_iff_left fun hm => hafter _ hm rfl, or_iff_right fun hm => hbefore _ hm rfl]
    split
    · next hreported => exact iff_of_true List.mem_cons_self hreported
    · next hreported => exact iff_of_false List.not_mem_nil hreported
  refine ⟨hmem, fun hlone => ?_, ?_⟩
  · have hinner : b.inner = b.body := by
      rw [Shell.Block.inner, List.takeWhile_eq_self_iff]
      intro line hm
      simpa [Shell.isClosing] using hlone line hm
    rw [hmem, hinner]
    exact and_iff_left ⟨h.long, h.assigns⟩
  · rw [localFindings_eq_append hlines h, List.filter_append, List.filter_append,
      List.filter_eq_self.mpr fun f hf => decide_eq_true (hbefore f hf),
      List.filter_eq_self.mpr fun f hf => decide_eq_true (hafter f hf)]
    split <;> simp

/-- A function that leaks variables, and below it another one with the declaration. -/
def deployBlock (declaration : String) : Shell.Block where
  before := ["f() \x7b".toList, "x=1".toList, "y=2".toList, "z=3".toList, "\x7d".toList]
  declaration := declaration.toList
  body := ["target=$1".toList, "echo deploying".toList, "echo $target".toList]
  closing := "\x7d".toList
  after := []

def deployScript (declaration : String) : Script where
  path := "/a.sh"
  extension := "sh"
  text := (deployBlock declaration).lines.flatMap (· ++ ['\n'])

/-- A declaration that ends with an expansion. -/
def expandingDeclaration : String :=
  "deploy() \x7b : $\x7b1:?\x7d"

theorem overhangs_deployBlock {declaration : String}
    (hdeclares : Shell.declaredFunction? declaration.toList = some "deploy".toList)
    (hopen : Shell.LeavesOpen declaration.toList) :
      (deployBlock declaration).Overhangs "deploy".toList where
  declares := Shell.declaredFunction?_eq_some_iff.mp hdeclares
  leavesOpen := hopen
  closes := rfl
  single := by
    have hsingle : ∀ line ∈ (deployBlock declaration).body,
        Shell.declaredFunction? line = none := by
      simp only [deployBlock]
      decide
    exact fun line hm => Shell.undeclared_iff.mp (hsingle line hm)
  long := by simp [deployBlock]
  assigns := ⟨"target=$1".toList, List.mem_cons_self, by decide⟩
  undeclared := by
    have hlocal : ∀ line ∈ (deployBlock declaration).body, ¬hasWord "local".toList line = true := by
      simp only [deployBlock]
      decide
    exact fun line hm => mt (hasWord_iff (by decide)).mpr (hlocal line hm)

theorem localFindings_overhanging_deployScript :
    let block := deployBlock expandingDeclaration
    let other := deployBlock "deploy() \x7b : $1"
    block.Overhangs "deploy".toList ∧
      block.report "deploy".toList ∉ localFindings (deployScript expandingDeclaration) ∧
      other.Overhangs "deploy".toList ∧
      other.report "deploy".toList ∈ localFindings (deployScript "deploy() \x7b : $1") := by
  intro block other
  have hblock : block.Overhangs "deploy".toList := overhangs_deployBlock (by decide) (by decide)
  have hother : other.Overhangs "deploy".toList := overhangs_deployBlock (by decide) (by decide)
  have hlines : block.lines = (deployScript expandingDeclaration).lines := by decide +kernel
  have hlines' : other.lines = (deployScript "deploy() \x7b : $1").lines := by decide +kernel
  refine ⟨hblock, fun hm => ?_, hother, ?_⟩
  · exact ((localFindings_overhanging hlines hblock).1.mp hm).1 (by decide)
  · exact ((localFindings_overhanging hlines' hother).2.1 (by decide)).mpr (by decide)

/-- A function is exempt that does not end on its line: the brace that ends its declaration closes
an expansion. -/
theorem not_reported_overhanging :
    ¬∀ (script : Script) (b : Shell.Block) (name : List Char), b.lines = script.lines →
      b.Overhangs name →
      (∀ line ∈ b.body, trim line ≠ ['\x7d']) → b.report name ∈ localFindings script := by
  intro hall
  have hreported :=
    hall (deployScript expandingDeclaration) (deployBlock expandingDeclaration) "deploy".toList
    (by decide +kernel) (overhangs_deployBlock (by decide) (by decide)) (by decide)
  exact absurd hreported (by decide +kernel)

end ScriptLint
