import ScriptLint.Proofs.LineGrammar

/-!
Patterns and what they can take of a text. A pattern that chooses or repeats can go on in several
ways; all of them count, whichever is tried first, so a pattern occurs in a text if any of them
comes through.
-/

namespace ScriptLint

inductive Pattern where
  /-- The start of the text. -/
  | start
  /-- A place with a word character on one side and none on the other. -/
  | boundary
  | text (s : List Char)
  | one (p : Char → Bool)
  | seq (first second : Pattern)
  | either (first second : Pattern)
  /-- The pattern any number of times. -/
  | many (body : Pattern)

namespace Pattern

instance : Append Pattern :=
  ⟨seq⟩

/-- One character at least. -/
def oneOrMore (p : Char → Bool) : Pattern :=
  .one p ++ .many (.one p)

/-- One piece after the other, each by itself in the way of `body`. -/
inductive Repeats (body : List Char → List Char → List Char → Prop) :
    List Char → List Char → List Char → Prop
  | none {before after : List Char} : Repeats body before [] after
  | more {before s t after : List Char} (first : body before s (t ++ after))
      (rest : Repeats body (before ++ s) t after) : Repeats body before (s ++ t) after

/-- Between what comes before and what comes after, the pattern can take the text. -/
def Takes : Pattern → (before taken after : List Char) → Prop
  | .start, before, taken, _ => before = [] ∧ taken = []
  | .boundary, before, taken, after =>
    taken = [] ∧ before.getLast?.any isWord ≠ after.head?.any isWord
  | .text s, _, taken, _ => taken = s
  | .one p, _, taken, _ => ∃ c, taken = [c] ∧ p c = true
  | .seq first second, before, taken, after =>
    ∃ s t, taken = s ++ t ∧ first.Takes before s (t ++ after) ∧ second.Takes (before ++ s) t after
  | .either first second, before, taken, after =>
    first.Takes before taken after ∨ second.Takes before taken after
  | .many body, before, taken, after => Repeats body.Takes before taken after

/-- Somewhere in the text is something that the pattern takes. -/
def Occurs (pattern : Pattern) (text : List Char) : Prop :=
  ∃ before taken after, text = before ++ (taken ++ after) ∧ pattern.Takes before taken after

variable {p : Char → Bool} {first second : Pattern} {before taken after s : List Char}

theorem takes_append :
    (first ++ second).Takes before taken after ↔
      ∃ s t, taken = s ++ t ∧ first.Takes before s (t ++ after) ∧
        second.Takes (before ++ s) t after :=
  Iff.rfl

theorem takes_either :
    (either first second).Takes before taken after ↔
      first.Takes before taken after ∨ second.Takes before taken after :=
  Iff.rfl

theorem takes_many_one : (many (.one p)).Takes before taken after ↔ ∀ c ∈ taken, p c = true := by
  constructor
  · intro h
    change Repeats (Takes (.one p)) before taken after at h
    induction h with
    | none => exact nofun
    | more first _ ih =>
      obtain ⟨c, rfl, hc⟩ := first
      exact List.forall_mem_cons.mpr ⟨hc, ih⟩
  · intro h
    induction taken generalizing before with
    | nil => exact .none
    | cons c taken ih =>
      obtain ⟨hc, htaken⟩ := List.forall_mem_cons.mp h
      exact Repeats.more (s := [c]) ⟨c, rfl, hc⟩ (ih htaken)

theorem takes_oneOrMore : (oneOrMore p).Takes before taken after ↔
    taken ≠ [] ∧ ∀ c ∈ taken, p c = true := by
  rw [oneOrMore, takes_append]
  constructor
  · rintro ⟨_, t, rfl, ⟨c, rfl, hc⟩, ht⟩
    exact ⟨List.cons_ne_nil c t, List.forall_mem_cons.mpr ⟨hc, takes_many_one.mp ht⟩⟩
  · rintro ⟨hne, h⟩
    obtain ⟨c, t, rfl⟩ := List.exists_cons_of_ne_nil hne
    obtain ⟨hc, ht⟩ := List.forall_mem_cons.mp h
    exact ⟨[c], t, rfl, ⟨c, rfl, hc⟩, takes_many_one.mpr ht⟩

/-- Whatever the pattern takes ends with a word character. -/
def EndsInWord (pattern : Pattern) : Prop :=
  ∀ before taken after, pattern.Takes before taken after → ∃ s c, taken = s ++ [c] ∧ isWord c = true

/-- Where a pattern can stop only after a word character, a boundary lets it stop only at the end of
the word. -/
theorem takes_append_boundary (hfirst : first.EndsInWord) :
    (first ++ .boundary).Takes before taken after ↔
      first.Takes before taken after ∧ Stops isWord after := by
  have hend : ∀ {before s after}, first.Takes before s after →
      (boundary.Takes (before ++ s) [] after ↔ Stops isWord after) := by
    intro before s after h
    obtain ⟨s, c, rfl, hc⟩ := hfirst _ _ _ h
    cases after with
    | nil => simp [Takes, hc, stops_nil]
    | cons d after => simp [Takes, hc, stops_cons]
  rw [takes_append]
  constructor
  · rintro ⟨s, _, rfl, hs, rfl, hbound⟩
    rw [List.nil_append] at hs
    rw [List.append_nil]
    exact ⟨hs, (hend hs).mp ⟨rfl, hbound⟩⟩
  · rintro ⟨hs, hstops⟩
    exact ⟨taken, [], (List.append_nil taken).symm, hs, (hend hs).mpr hstops⟩

theorem endsInWord_either (hfirst : first.EndsInWord) (hsecond : second.EndsInWord) :
    (either first second).EndsInWord
  | _, _, _, .inl h => hfirst _ _ _ h
  | _, _, _, .inr h => hsecond _ _ _ h

/-- A pattern that is tied to the start of the text can only be found there. -/
theorem occurs_start_append :
    (start ++ second).Occurs s ↔ ∃ taken after, s = taken ++ after ∧
      second.Takes [] taken after := by
  constructor
  · rintro ⟨_, _, after, rfl, _, taken, rfl, ⟨rfl, rfl⟩, h⟩
    exact ⟨taken, after, rfl, h⟩
  · rintro ⟨taken, after, rfl, h⟩
    exact ⟨[], taken, after, rfl, [], taken, rfl, ⟨rfl, rfl⟩, h⟩

end Pattern

end ScriptLint
