import Mathlib
import ScriptLint.Proofs.JsonGrammar
import ScriptLint.Proofs.Readers
import ScriptLint.Text.Search
import ScriptLint.Toml.Moment

/-!
Reading JSON. Main statement: `read_eq_some_iff`, reading a text gives a value exactly if the text
is a JSON text of the value. So no text has two values.
-/

namespace ScriptLint.Json

open Toml (Reader charOf? expect?)

/-! ## Characters -/

def readUnit : Reader Nat
  | a :: b :: c :: d :: s => (codeUnit? a b c d).map (·, s)
  | _ => none

/-- The second unit of a character that takes two. -/
def readLow (high : Nat) : Reader Char
  | '\\' :: 'u' :: s => do
    let (low, s) ← readUnit s
    if IsLow low then (charOf? (pairCode high low)).map (·, s) else none
  | _ => none

/-- A character from after a backslash on. -/
def readEscape : Reader Char
  | 'u' :: s => do
    let (n, s) ← readUnit s
    if IsHigh n then readLow n s else (charOf? n).map (·, s)
  | l :: s => (escapeLetter? l).map (·, s)
  | [] => none

/-- A character inside quotes. -/
def readChar : Reader Char
  | '\\' :: s => readEscape s
  | c :: s => if c = '"' ∨ c.toNat < 0x20 then none else some (c, s)
  | [] => none

theorem charOf_eq_some_iff {n : Nat} {c : Char} : charOf? n = some c ↔ c.toNat = n := by
  unfold charOf?
  split
  · next h =>
    rw [Option.some.injEq, ← Char.toNat_inj]
    have hn : (Char.ofNatAux n h).toNat = n := by
      simp [Char.ofNatAux, Char.toNat]
    rw [hn]
    exact eq_comm
  · next h =>
    constructor
    · intro hc
      cases hc
    · intro hc
      exact absurd (hc ▸ c.valid) h

/-- Half of a pair is no character. -/
theorem not_isHigh_toNat (c : Char) : ¬ IsHigh c.toNat := by
  have hv : c.toNat < 0xd800 ∨ 0xdfff < c.toNat ∧ c.toNat < 0x110000 := c.valid
  unfold IsHigh
  omega

theorem readChar_of_spells {c : Char} {u : List Char} (h : SpellsChar c u) (rest : List Char) :
    readChar (u ++ rest) = some (c, rest) := by
  cases h with
  | plain hq hb hc =>
    have hnot : ¬ (c = '"' ∨ c.toNat < 0x20) := by
      rintro (hc' | hc')
      · exact hq hc'
      · omega
    simp [readChar, hnot]
  | letter h =>
    next l =>
    have hu : l ≠ 'u' := by
      rintro rfl
      cases h
    simp [readChar, readEscape, h]
  | unit h =>
    have hc : charOf? c.toNat = some c := charOf_eq_some_iff.mpr rfl
    simp [readChar, readEscape, readUnit, h, not_isHigh_toNat, hc]
  | pair ha hb hh hl h =>
    have hc := charOf_eq_some_iff.mpr h
    simp [readChar, readEscape, readLow, readUnit, ha, hb, hh, hl, hc]

theorem readUnit_eq_some {s rest : List Char} {n : Nat} (h : readUnit s = some (n, rest)) :
    ∃ a b c d, codeUnit? a b c d = some n ∧ s = a :: b :: c :: d :: rest := by
  unfold readUnit at h
  split at h
  · next a b c d s =>
    obtain ⟨m, hm, he⟩ := Option.map_eq_some_iff.mp h
    cases he
    exact ⟨a, b, c, d, hm, rfl⟩
  · cases h

theorem readLow_eq_some {high : Nat} {s rest : List Char} {c : Char}
    (h : readLow high s = some (c, rest)) :
    ∃ a b d e low, codeUnit? a b d e = some low ∧ IsLow low ∧ c.toNat = pairCode high low ∧
      s = '\\' :: 'u' :: a :: b :: d :: e :: rest := by
  unfold readLow at h
  split at h
  · obtain ⟨⟨low, s'⟩, hu, hc⟩ := Option.bind_eq_some_iff.mp h
    obtain ⟨a, b, d, e, ha, rfl⟩ := readUnit_eq_some hu
    simp only at hc
    split at hc
    · next hl =>
      obtain ⟨c', hc', he⟩ := Option.map_eq_some_iff.mp hc
      cases he
      exact ⟨a, b, d, e, low, ha, hl, charOf_eq_some_iff.mp hc', rfl⟩
    · cases hc
  · cases h

theorem spells_of_readEscape {s rest : List Char} {c : Char} (h : readEscape s = some (c, rest)) :
    ∃ u, SpellsChar c u ∧ '\\' :: s = u ++ rest := by
  unfold readEscape at h
  split at h
  · obtain ⟨⟨n, s'⟩, hu, hc⟩ := Option.bind_eq_some_iff.mp h
    obtain ⟨a₁, a₂, a₃, a₄, ha, rfl⟩ := readUnit_eq_some hu
    simp only at hc
    split at hc
    · next hh =>
      obtain ⟨b₁, b₂, b₃, b₄, low, hb, hl, hp, rfl⟩ := readLow_eq_some hc
      exact ⟨_, .pair ha hb hh hl hp, rfl⟩
    · obtain ⟨c', hc', he⟩ := Option.map_eq_some_iff.mp hc
      cases he
      rw [← charOf_eq_some_iff.mp hc'] at ha
      exact ⟨_, .unit ha, rfl⟩
  · obtain ⟨c', hc', he⟩ := Option.map_eq_some_iff.mp h
    cases he
    exact ⟨_, .letter hc', rfl⟩
  · cases h

theorem spells_of_readChar {s rest : List Char} {c : Char} (h : readChar s = some (c, rest)) :
    ∃ u, SpellsChar c u ∧ s = u ++ rest := by
  unfold readChar at h
  split at h
  · exact spells_of_readEscape h
  · next c' s hb =>
    split at h
    · cases h
    · next hc =>
      cases h
      rw [not_or] at hc
      exact ⟨[c], .plain hc.1 hb (by omega), rfl⟩
  · cases h

/-! ## Texts -/

/-- One character of a text, or its closing quote. -/
def textStep (cs : List Char) : Reader (List Char ⊕ List Char)
  | '"' :: s => some (.inr cs, s)
  | s => do
    let (c, s) ← readChar s
    return (.inl (cs ++ [c]), s)

def readText : Reader String
  | '"' :: s => (Reader.loop textStep [] s).map fun (cs, rest) => (String.ofList cs, rest)
  | _ => none

theorem SpellsChar.head {c : Char} {u : List Char} (h : SpellsChar c u) :
    ∃ d v, u = d :: v ∧ d ≠ '"' := by
  cases h with
  | plain hq => exact ⟨_, _, rfl, hq⟩
  | letter => exact ⟨_, _, rfl, by decide⟩
  | unit => exact ⟨_, _, rfl, by decide⟩
  | pair => exact ⟨_, _, rfl, by decide⟩

theorem textStep_quote (text rest : List Char) :
    textStep text ('"' :: rest) = some (.inr text, rest) := rfl

theorem textStep_of_spells {c : Char} {u : List Char} (h : SpellsChar c u) (text rest : List Char) :
    textStep text (u ++ rest) = some (.inl (text ++ [c]), rest) := by
  have hr := readChar_of_spells h rest
  obtain ⟨d, v, rfl, hd⟩ := h.head
  rw [List.cons_append] at hr ⊢
  simp [textStep, hd, hr]

theorem loop_textStep_of_spells {cs u : List Char} (h : SpellsChars cs u) (text rest : List Char) :
    Reader.loop textStep text (u ++ '"' :: rest) = some (text ++ cs, rest) := by
  induction h generalizing text with
  | nil => simpa using Reader.loop_of_done (textStep_quote text rest)
  | cons hc _ ih =>
    have hs := textStep_of_spells hc text
    obtain ⟨d, v, rfl, -⟩ := hc.head
    rw [List.append_assoc, Reader.loop_of_more (hs _), ih]
    · simp
    · simp only [List.cons_append, List.length_cons, List.length_append]
      omega

theorem readText_of_spells {t : String} {u : List Char} (h : SpellsText t u) (rest : List Char) :
    readText (u ++ rest) = some (t, rest) := by
  cases h with
  | mk h =>
    have hl := loop_textStep_of_spells h [] rest
    simp [readText, hl]

theorem spells_of_loop_textStep {text s result rest : List Char}
    (h : Reader.loop textStep text s = some (result, rest)) :
    ∃ cs u, SpellsChars cs u ∧ result = text ++ cs ∧ s = u ++ '"' :: rest := by
  refine Reader.loop_induction (motive := fun text s =>
    ∃ cs u, SpellsChars cs u ∧ result = text ++ cs ∧ s = u ++ '"' :: rest) ?_ ?_ h
  · intro text s hs
    unfold textStep at hs
    split at hs
    · cases hs
      exact ⟨[], [], .nil, by simp, rfl⟩
    · obtain ⟨⟨c, s'⟩, -, hs⟩ := Option.bind_eq_some_iff.mp hs
      cases hs
  · rintro text s next s' hs ⟨cs, v, hv, rfl, rfl⟩
    unfold textStep at hs
    split at hs
    · cases hs
    · obtain ⟨⟨c, s''⟩, hc, hs⟩ := Option.bind_eq_some_iff.mp hs
      cases hs
      obtain ⟨u, hu, rfl⟩ := spells_of_readChar hc
      exact ⟨c :: cs, u ++ v, .cons hu hv, by simp, by simp⟩

theorem spells_of_readText {t : String} {s rest : List Char} (h : readText s = some (t, rest)) :
    ∃ u, SpellsText t u ∧ s = u ++ rest := by
  unfold readText at h
  split at h
  · obtain ⟨⟨cs, s'⟩, hl, he⟩ := Option.map_eq_some_iff.mp h
    cases he
    obtain ⟨cs', u, hu, rfl, rfl⟩ := spells_of_loop_textStep hl
    exact ⟨_, .mk (by simpa using hu), by simp⟩
  · cases h

/-! ## Single values -/

instance (ds : List Char) : Decidable (IsWhole ds) := inferInstanceAs (Decidable (_ ∧ _ ∧ _))

def readWhole : Reader Nat := fun s =>
  let ds := s.takeWhile Char.isDigit
  if IsWhole ds then some (ofDecimal ds, s.dropWhile Char.isDigit) else none

/-- A value that is no array and no object. -/
def readSingle : Reader Json := fun s =>
  match stripStart "true".toList s with
  | some rest => some (.bool true, rest)
  | none =>
    match stripStart "false".toList s with
    | some rest => some (.bool false, rest)
    | none =>
      match readWhole s with
      | some (n, rest) => some (.number n, rest)
      | none => (readText s).map fun (t, rest) => (.text t, rest)

/-- A number cannot go on there. -/
def NoDigitFirst (s : List Char) : Prop :=
  ∀ c ∈ s.head?, c.isDigit = false

theorem takeWhile_isDigit_append {ds rest : List Char} (hd : ∀ c ∈ ds, c.isDigit = true)
    (hr : NoDigitFirst rest) :
    (ds ++ rest).takeWhile Char.isDigit = ds ∧ (ds ++ rest).dropWhile Char.isDigit = rest := by
  rw [List.takeWhile_append_of_pos hd, List.dropWhile_append_of_pos hd]
  cases rest with
  | nil => simp
  | cons c rest =>
    have hc : c.isDigit = false := hr c rfl
    simp [hc]

theorem readWhole_of_isWhole {ds rest : List Char} (h : IsWhole ds) (hr : NoDigitFirst rest) :
    readWhole (ds ++ rest) = some (ofDecimal ds, rest) := by
  obtain ⟨ht, hd⟩ := takeWhile_isDigit_append h.2.1 hr
  simp only [readWhole, ht, hd, h, if_true]

theorem isWhole_of_readWhole {s rest : List Char} {n : Nat} (h : readWhole s = some (n, rest)) :
    ∃ ds, IsWhole ds ∧ n = ofDecimal ds ∧ s = ds ++ rest := by
  unfold readWhole at h
  simp only at h
  split at h
  · next hw =>
    cases h
    exact ⟨_, hw, rfl, List.takeWhile_append_dropWhile.symm⟩
  · cases h

theorem IsWhole.head {ds : List Char} (h : IsWhole ds) : ∃ d v, ds = d :: v ∧ d.isDigit = true := by
  cases ds with
  | nil => exact absurd rfl h.1
  | cons d v => exact ⟨d, v, rfl, h.2.1 d (by simp)⟩

/-- A word is not at the start of a text that begins with another character. -/
theorem stripStart_cons_of_ne {p c : Char} {ps s : List Char} (h : p ≠ c) :
    stripStart (p :: ps) (c :: s) = none := by
  simp [stripStart, h]

theorem readSingle_bool (b : Bool) (rest : List Char) :
    readSingle ((if b then "true" else "false").toList ++ rest) = some (.bool b, rest) := by
  cases b with
  | true =>
    have ht : stripStart "true".toList ("true".toList ++ rest) = some rest :=
      stripStart_eq_some_iff.mpr rfl
    simp only [readSingle, if_true, ht]
  | false =>
    have ht : stripStart "true".toList ("false".toList ++ rest) = none :=
      stripStart_cons_of_ne (by decide)
    have hf : stripStart "false".toList ("false".toList ++ rest) = some rest :=
      stripStart_eq_some_iff.mpr rfl
    simp only [readSingle, Bool.false_eq_true, if_false, ht, hf]

theorem readSingle_of_isWhole {ds rest : List Char} (h : IsWhole ds) (hr : NoDigitFirst rest) :
    readSingle (ds ++ rest) = some (.number (ofDecimal ds), rest) := by
  have hw := readWhole_of_isWhole h hr
  obtain ⟨d, v, rfl, hd⟩ := h.head
  have ht : stripStart "true".toList (d :: v ++ rest) = none :=
    stripStart_cons_of_ne (by rintro rfl; exact absurd hd (by decide))
  have hf : stripStart "false".toList (d :: v ++ rest) = none :=
    stripStart_cons_of_ne (by rintro rfl; exact absurd hd (by decide))
  rw [readSingle, ht, hf, hw]

theorem readSingle_of_spellsText {t : String} {u : List Char} (h : SpellsText t u)
    (rest : List Char) : readSingle (u ++ rest) = some (.text t, rest) := by
  have hr := readText_of_spells h rest
  obtain ⟨v, rfl⟩ : ∃ v, u = '"' :: v := by
    cases h with
    | mk h => exact ⟨_, rfl⟩
  have ht : stripStart "true".toList ('"' :: v ++ rest) = none := stripStart_cons_of_ne (by decide)
  have hf : stripStart "false".toList ('"' :: v ++ rest) = none := stripStart_cons_of_ne (by decide)
  have hw : readWhole ('"' :: v ++ rest) = none := by
    have hq : Char.isDigit '"' = false := by decide
    simp [readWhole, IsWhole, hq]
  rw [readSingle, ht, hf, hw, hr]
  rfl

theorem spells_of_readSingle {s rest : List Char} {j : Json} (h : readSingle s = some (j, rest)) :
    ∃ u, Spells j u ∧ s = u ++ rest := by
  unfold readSingle at h
  split at h
  · next hs =>
    cases h
    exact ⟨_, @Spells.bool true, stripStart_eq_some_iff.mp hs⟩
  · split at h
    · next hs =>
      cases h
      exact ⟨_, @Spells.bool false, stripStart_eq_some_iff.mp hs⟩
    · split at h
      · next hs =>
        cases h
        obtain ⟨ds, hw, rfl, rfl⟩ := isWhole_of_readWhole hs
        exact ⟨ds, .number hw, rfl⟩
      · obtain ⟨⟨t, s'⟩, ht, he⟩ := Option.map_eq_some_iff.mp h
        cases he
        obtain ⟨u, hu, rfl⟩ := spells_of_readText ht
        exact ⟨u, .text hu, rfl⟩

/-! ## Parts with commas between them -/

def skipGap (s : List Char) : List Char :=
  s.dropWhile isGapChar

section Items

variable {α : Type}

/-- One more part, up to the comma or the closing sign after it. -/
def itemStep (readItem : Reader α) (close : Char) (xs : List α) : Reader (List α ⊕ List α) :=
  fun s => do
  let (x, rest) ← readItem (skipGap s)
  match skipGap rest with
  | [] => none
  | c :: rest =>
    if c = ',' then return (.inl (xs ++ [x]), rest)
    else if c = close then return (.inr (xs ++ [x]), rest)
    else none

/-- All parts up to the closing sign. -/
def readItems (readItem : Reader α) (close : Char) : Reader (List α) := fun s =>
  match skipGap s with
  | [] => none
  | c :: rest =>
    if c = close then some ([], rest) else Reader.loop (itemStep readItem close) [] s

/-- A sign that can close parts. -/
structure IsClosing (close : Char) : Prop where
  not_gap : isGapChar close = false
  not_comma : close ≠ ','
  not_digit : close.isDigit = false

/-- The text of a part starts with a sign of its own. -/
def StartsItem (close : Char) (u : List Char) : Prop :=
  ∃ c v, u = c :: v ∧ isGapChar c = false ∧ c ≠ close

theorem skipGap_append {w : List Char} (h : IsGap w) (s : List Char) :
    skipGap (w ++ s) = skipGap s :=
  List.dropWhile_append_of_pos h

theorem skipGap_cons {c : Char} (h : isGapChar c = false) (s : List Char) :
    skipGap (c :: s) = c :: s := by
  simp [skipGap, h]

theorem exists_gap (s : List Char) : ∃ w, IsGap w ∧ s = w ++ skipGap s := by
  refine ⟨s.takeWhile isGapChar, ?_, List.takeWhile_append_dropWhile.symm⟩
  intro c hc
  exact List.all_eq_true.mp List.all_takeWhile c hc

theorem noDigitFirst_gap {w : List Char} (hw : IsGap w) {c : Char} (hc : c.isDigit = false)
    (s : List Char) : NoDigitFirst (w ++ c :: s) := by
  cases w with
  | nil =>
    intro d hd
    cases hd
    exact hc
  | cons d w =>
    intro d' hd
    cases hd
    have hg := hw d (by simp)
    simp only [isGapChar, Bool.or_eq_true, beq_iff_eq] at hg
    rcases hg with ((rfl | rfl) | rfl) | rfl <;> decide

variable {P : α → List Char → Prop} {readItem : Reader α} {close : Char}

theorem itemStep_of_padded {x : α} {w u w' : List Char} {c : Char} {rest : List Char} (hw : IsGap w)
    (hu : StartsItem close u) (hw' : IsGap w') (hc : isGapChar c = false)
    (hx : readItem (u ++ (w' ++ c :: rest)) = some (x, w' ++ c :: rest)) (xs : List α) :
    itemStep readItem close xs (w ++ u ++ w' ++ c :: rest) =
      if c = ',' then some (.inl (xs ++ [x]), rest)
      else if c = close then some (.inr (xs ++ [x]), rest)
      else none := by
  obtain ⟨d, v, rfl, hd, -⟩ := hu
  have hs : skipGap (w ++ d :: v ++ w' ++ c :: rest) = d :: v ++ (w' ++ c :: rest) := by
    rw [List.append_assoc, List.append_assoc, skipGap_append hw, List.cons_append, skipGap_cons hd]
  have hr : skipGap (w' ++ c :: rest) = c :: rest := by
    rw [skipGap_append hw', skipGap_cons hc]
  simp only [itemStep, hs, hx, hr, bind, Option.bind, pure]

/-- Reading takes in all parts, if it takes in each part that is shorter than the whole. -/
theorem loop_itemStep_of_separated {xs : List α} {s : List Char} (hclose : IsClosing close)
    (hs : Separated P xs s) (hne : xs ≠ [])
    (hP : ∀ x u, P x u → u.length ≤ s.length → StartsItem close u ∧
      ∀ rest, NoDigitFirst rest → readItem (u ++ rest) = some (x, rest))
    (before : List α) (rest : List Char) :
    Reader.loop (itemStep readItem close) before (s ++ close :: rest) = some (before ++ xs,
      rest) := by
  induction hs generalizing before with
  | nil => exact absurd rfl hne
  | last hw hx hw' =>
    obtain ⟨hstart, hread⟩ := hP _ _ hx (by simp; omega)
    have hstep := itemStep_of_padded hw hstart hw' hclose.not_gap
      (hread _ (noDigitFirst_gap hw' hclose.not_digit rest)) before
    simp only [hclose.not_comma, if_false, if_true] at hstep
    exact Reader.loop_of_done hstep
  | @cons x y ys w u w' v hw hx hw' _ ih =>
    obtain ⟨hstart, hread⟩ := hP _ _ hx (by simp; omega)
    have hstep := itemStep_of_padded hw hstart hw' (c := ',') (by decide)
      (hread _ (noDigitFirst_gap hw' (by decide) (v ++ close :: rest))) before
    simp only [if_true] at hstep
    have hih := ih (by simp) (fun x u hx hl => hP x u hx (by simp; omega)) (before ++ [x])
    rw [List.append_assoc, List.cons_append, Reader.loop_of_more hstep (by simp; omega), hih]
    simp

theorem skipGap_of_separated {xs : List α} {s : List Char} (hs : Separated P xs s) (hne : xs ≠ [])
    (hP : ∀ x u, P x u → u.length ≤ s.length → StartsItem close u) (rest : List Char) :
    ∃ c v, skipGap (s ++ rest) = c :: v ∧ c ≠ close := by
  have hpad : ∃ x w u v, IsGap w ∧ P x u ∧ s = w ++ u ++ v := by
    cases hs with
    | nil => exact absurd rfl hne
    | last hw hx hw' => exact ⟨_, _, _, _, hw, hx, rfl⟩
    | cons hw hx hw' hs => exact ⟨_, _, _, _, hw, hx, List.append_assoc ..⟩
  obtain ⟨x, w, u, v, hw, hx, rfl⟩ := hpad
  obtain ⟨c, u', rfl, hc, hclose⟩ := hP x u hx (by simp; omega)
  refine ⟨c, u' ++ v ++ rest, ?_, hclose⟩
  rw [List.append_assoc, List.append_assoc, skipGap_append hw, List.cons_append, skipGap_cons hc,
    List.append_assoc]

theorem readItems_of_separated {xs : List α} {s : List Char} (hclose : IsClosing close)
    (hs : Separated P xs s) (hP : ∀ x u, P x u → u.length ≤ s.length → StartsItem close u ∧
      ∀ rest, NoDigitFirst rest → readItem (u ++ rest) = some (x, rest))
    (rest : List Char) : readItems readItem close (s ++ close :: rest) = some (xs, rest) := by
  by_cases hne : xs = []
  · subst hne
    cases hs with
    | nil hw => simp [readItems, skipGap_append hw, skipGap_cons hclose.not_gap]
  · obtain ⟨c, v, hskip, hc⟩ :=
      skipGap_of_separated hs hne (fun x u hx hl => (hP x u hx hl).1) (close :: rest)
    have hl := loop_itemStep_of_separated hclose hs hne hP [] rest
    simp [readItems, hskip, hc, hl]

theorem eq_of_itemStep {s rest : List Char} {before : List α} {r : List α ⊕ List α}
    (hread : ∀ s x rest, readItem s = some (x, rest) → ∃ u, P x u ∧ s = u ++ rest)
    (h : itemStep readItem close before s = some (r, rest)) :
    ∃ x w u w', IsGap w ∧ P x u ∧ IsGap w' ∧
      (s = w ++ u ++ w' ++ ',' :: rest ∧ r = .inl (before ++ [x]) ∨
        s = w ++ u ++ w' ++ close :: rest ∧ r = .inr (before ++ [x])) := by
  obtain ⟨⟨x, after⟩, hx, h⟩ := Option.bind_eq_some_iff.mp h
  obtain ⟨u, hu, hs⟩ := hread _ _ _ hx
  obtain ⟨w, hw, hs'⟩ := exists_gap s
  obtain ⟨w', hw', hafter⟩ := exists_gap after
  refine ⟨x, w, u, w', hw, hu, hw', ?_⟩
  simp only at h
  split at h
  · cases h
  · next c rest' hc =>
    have hall : s = w ++ u ++ w' ++ c :: rest' := by
      rw [hs', hs, hafter, hc]
      simp
    split at h
    · next hcomma =>
      cases h
      exact .inl ⟨hcomma ▸ hall, rfl⟩
    · split at h
      · next hclose =>
        cases h
        exact .inr ⟨hclose ▸ hall, rfl⟩
      · cases h

theorem separated_of_readItems {xs : List α} {s rest : List Char}
    (hread : ∀ s x rest, readItem s = some (x, rest) → ∃ u, P x u ∧ s = u ++ rest)
    (h : readItems readItem close s = some (xs, rest)) :
    ∃ u, Separated P xs u ∧ s = u ++ close :: rest := by
  unfold readItems at h
  split at h
  · cases h
  · next c after hskip =>
    split at h
    · next hc =>
      cases h
      obtain ⟨w, hw, hs⟩ := exists_gap s
      rw [hskip, hc] at hs
      exact ⟨w, .nil hw, hs⟩
    · have hloop := Reader.loop_induction (motive := fun before s =>
        ∃ y ys u, Separated P (y :: ys) u ∧ xs = before ++ y :: ys ∧ s = u ++ close :: rest) ?_ ?_ h
      · obtain ⟨y, ys, u, hu, rfl, rfl⟩ := hloop
        exact ⟨u, hu, rfl⟩
      · intro before s hs
        obtain ⟨x, w, u, w', hw, hu, hw', ⟨-, he⟩ | ⟨rfl, he⟩⟩ := eq_of_itemStep hread hs
        · cases he
        · cases he
          exact ⟨x, [], _, .last hw hu hw', rfl, rfl⟩
      · rintro before s next s' hs ⟨y, ys, v, hv, rfl, rfl⟩
        obtain ⟨x, w, u, w', hw, hu, hw', ⟨rfl, he⟩ | ⟨-, he⟩⟩ := eq_of_itemStep hread hs
        · cases he
          exact ⟨x, y :: ys, _, .cons hw hu hw' hv, by simp, by simp⟩
        · cases he

end Items

/-! ## Values -/

/-- A key, a colon and a value. -/
def readMember (readValue : Reader Json) : Reader (String × Json) := fun s => do
  let (key, rest) ← readText s
  let rest ← expect? ':' (skipGap rest)
  let (x, rest) ← readValue (skipGap rest)
  return ((key, x), rest)

/-- A value, in which brackets and braces stand inside each other at most `depth` deep. -/
def readValue : (depth : Nat) → Reader Json
  | 0 => readSingle
  | depth + 1 => fun
    | '[' :: s =>
      (readItems (readValue depth) ']' s).map fun (xs, rest) => (.array xs, rest)
    | '\x7b' :: s =>
      (readItems (readMember (readValue depth)) '\x7d' s).map fun (ms, rest) => (.object ms, rest)
    | s => readSingle s

/-- The value of a JSON text. It cannot be deeper than the text is long. -/
def read? (text : String) : Option Json := do
  let s := text.toList
  let (j, rest) ← readValue s.length (skipGap s)
  if (skipGap rest).isEmpty then some j else none

theorem isClosing_bracket : IsClosing ']' := ⟨by decide, by decide, by decide⟩

theorem isClosing_brace : IsClosing '\x7d' := ⟨by decide, by decide, by decide⟩

/-- The first character of a value: no blank, and no sign that closes one. -/
theorem Spells.head {j : Json} {u : List Char} (h : Spells j u) :
    ∃ c v, u = c :: v ∧ isGapChar c = false ∧ c ≠ ']' ∧ c ≠ '\x7d' := by
  cases h with
  | @bool b =>
    cases b with
    | true => exact ⟨_, _, rfl, by decide, by decide, by decide⟩
    | false => exact ⟨_, _, rfl, by decide, by decide, by decide⟩
  | number h =>
    obtain ⟨d, v, rfl, hd⟩ := h.head
    have hne : ∀ c, c.isDigit = false → d ≠ c := by
      rintro c hc rfl
      rw [hc] at hd
      cases hd
    refine ⟨d, v, rfl, ?_, hne _ (by decide), hne _ (by decide)⟩
    simp [isGapChar, hne ' ' (by decide), hne '\t' (by decide), hne '\n' (by decide),
      hne '\r' (by decide)]
  | text h =>
    cases h with
    | mk h => exact ⟨_, _, rfl, by decide, by decide, by decide⟩
  | array => exact ⟨_, _, rfl, by decide, by decide, by decide⟩
  | object => exact ⟨_, _, rfl, by decide, by decide, by decide⟩

theorem SpellsMember.head {P : Json → List Char → Prop} {m : String × Json} {u : List Char}
    (h : SpellsMember P m u) : ∃ v, u = '"' :: v := by
  cases h with
  | mk hk before after hx =>
    cases hk with
    | mk h => exact ⟨_, rfl⟩

theorem readMember_of_spells {read : Reader Json} {m : String × Json} {u rest : List Char}
    (h : SpellsMember Spells m u)
    (hread : ∀ x v, Spells x v → v.length < u.length → read (v ++ rest) = some (x, rest)) :
    readMember read (u ++ rest) = some (m, rest) := by
  cases h with
  | @mk key x q w w' v hk hw hw' hx =>
    have hkey := readText_of_spells hk (w ++ ':' :: w' ++ v ++ rest)
    have hcolon : skipGap (w ++ ':' :: w' ++ v ++ rest) = ':' :: w' ++ v ++ rest := by
      rw [List.append_assoc, List.append_assoc, skipGap_append hw, List.cons_append,
        skipGap_cons (by decide), List.cons_append, List.cons_append, List.append_assoc]
    have hvalue : skipGap (w' ++ v ++ rest) = v ++ rest := by
      obtain ⟨c, v', rfl, hc, -⟩ := hx.head
      rw [List.append_assoc, skipGap_append hw', List.cons_append, skipGap_cons hc]
    have hlast := hread x v hx (by simp; omega)
    have hassoc : q ++ w ++ ':' :: w' ++ v ++ rest = q ++ (w ++ ':' :: w' ++ v ++ rest) := by simp
    rw [hassoc]
    simp only [readMember, hkey, hcolon, expect?, hvalue, hlast, List.cons_append, if_true, bind,
      Option.bind, pure]

theorem readValue_bracket (depth : Nat) (s : List Char) :
    readValue (depth + 1) ('[' :: s) =
      (readItems (readValue depth) ']' s).map fun (xs, rest) => (.array xs, rest) := rfl

theorem readValue_brace (depth : Nat) (s : List Char) :
    readValue (depth + 1) ('\x7b' :: s) =
      (readItems (readMember (readValue depth)) '\x7d' s).map fun (ms, rest) =>
        (.object ms, rest) :=
  rfl

/-- A value that starts with neither a bracket nor a brace. -/
theorem readValue_single {c : Char} (hb : c ≠ '[') (hc : c ≠ '\x7b') (depth : Nat) (s : List Char) :
    readValue depth (c :: s) = readSingle (c :: s) := by
  cases depth with
  | zero => rfl
  | succ depth => simp [readValue, hb, hc]

theorem noDigitFirst_of_isGap {w : List Char} (h : IsGap w) : NoDigitFirst w := by
  cases w with
  | nil =>
    intro c hc
    cases hc
  | cons c w =>
    intro d hd
    cases hd
    exact noDigitFirst_gap (w := [c]) (by simpa [IsGap] using h c (by simp)) (c := 'x') (by decide)
      [] c rfl

/-- Reading takes in every text of a value that is not longer than the depth. -/
theorem readValue_of_spells {depth : Nat} {j : Json} {u rest : List Char} (h : Spells j u)
    (hl : u.length ≤ depth) (hr : NoDigitFirst rest) :
    readValue depth (u ++ rest) = some (j, rest) := by
  induction depth generalizing j u rest with
  | zero =>
    obtain ⟨c, v, rfl, -⟩ := h.head
    simp at hl
  | succ depth ih =>
    cases h with
    | @bool b =>
      rw [← readSingle_bool b rest]
      cases b with
      | true => exact readValue_single (by decide) (by decide) _ _
      | false => exact readValue_single (by decide) (by decide) _ _
    | number h =>
      rw [← readSingle_of_isWhole h hr]
      obtain ⟨d, v, rfl, hd⟩ := h.head
      refine readValue_single ?_ ?_ _ _
      · rintro rfl
        exact absurd hd (by decide)
      · rintro rfl
        exact absurd hd (by decide)
    | text h =>
      rw [← readSingle_of_spellsText h rest]
      cases h with
      | mk h => exact readValue_single (by decide) (by decide) _ _
    | @array xs v h =>
      simp only [List.length_append, List.length_cons] at hl
      have hitems : readItems (readValue depth) ']' (v ++ ']' :: rest) = some (xs, rest) := by
        refine readItems_of_separated isClosing_bracket h (fun x w hx hw => ⟨?_, ?_⟩) rest
        · obtain ⟨c, w', rfl, hc, hne, -⟩ := hx.head
          exact ⟨c, w', rfl, hc, hne⟩
        · intro rest hr
          exact ih hx (by omega) hr
      have hassoc : '[' :: v ++ [']'] ++ rest = '[' :: (v ++ ']' :: rest) := by simp
      rw [hassoc, readValue_bracket, hitems]
      rfl
    | @object ms v h =>
      simp only [List.length_append, List.length_cons] at hl
      have hitems : readItems (readMember (readValue depth)) '\x7d' (v ++ '\x7d' :: rest) =
          some (ms, rest) := by
        refine readItems_of_separated isClosing_brace h (fun m w hm hw => ⟨?_, ?_⟩) rest
        · obtain ⟨w', rfl⟩ := hm.head
          exact ⟨_, w', rfl, by decide, by decide⟩
        · intro rest hr
          exact readMember_of_spells hm fun x v hx hv => ih hx (by omega) hr
      have hassoc : '\x7b' :: v ++ ['\x7d'] ++ rest = '\x7b' :: (v ++ '\x7d' :: rest) := by simp
      rw [hassoc, readValue_brace, hitems]
      rfl

theorem spells_of_readMember {read : Reader Json} {m : String × Json} {s rest : List Char}
    (hread : ∀ s x rest, read s = some (x, rest) → ∃ u, Spells x u ∧ s = u ++ rest)
    (h : readMember read s = some (m, rest)) : ∃ u, SpellsMember Spells m u ∧ s = u ++ rest := by
  obtain ⟨⟨key, s₁⟩, hkey, h⟩ := Option.bind_eq_some_iff.mp h
  obtain ⟨s₂, hcolon, h⟩ := Option.bind_eq_some_iff.mp h
  obtain ⟨⟨x, s₃⟩, hx, h⟩ := Option.bind_eq_some_iff.mp h
  cases h
  obtain ⟨q, hq, rfl⟩ := spells_of_readText hkey
  obtain ⟨v, hv, hs₂⟩ := hread _ _ _ hx
  obtain ⟨w, hw, hs₁⟩ := exists_gap s₁
  obtain ⟨w', hw', hs₂'⟩ := exists_gap s₂
  have hc : skipGap s₁ = ':' :: s₂ := by
    cases hs : skipGap s₁ with
    | nil =>
      rw [hs] at hcolon
      cases hcolon
    | cons c t =>
      rw [hs] at hcolon
      simp only [expect?] at hcolon
      split at hcolon
      · next he =>
        cases hcolon
        rw [he]
      · cases hcolon
  refine ⟨_, .mk hq hw hw' hv, ?_⟩
  rw [hs₁, hc, hs₂', hs₂]
  simp

theorem spells_of_readValue {depth : Nat} {j : Json} {s rest : List Char}
    (h : readValue depth s = some (j, rest)) : ∃ u, Spells j u ∧ s = u ++ rest := by
  induction depth generalizing j s rest with
  | zero => exact spells_of_readSingle h
  | succ depth ih =>
    unfold readValue at h
    split at h
    · obtain ⟨⟨xs, s'⟩, hitems, he⟩ := Option.map_eq_some_iff.mp h
      cases he
      obtain ⟨u, hu, rfl⟩ := separated_of_readItems (fun _ _ _ hx => ih hx) hitems
      exact ⟨_, .array hu, by simp⟩
    · obtain ⟨⟨ms, s'⟩, hitems, he⟩ := Option.map_eq_some_iff.mp h
      cases he
      obtain ⟨u, hu, rfl⟩ := separated_of_readItems
        (fun _ _ _ hm => spells_of_readMember (fun _ _ _ hx => ih hx) hm) hitems
      exact ⟨_, .object hu, by simp⟩
    · exact spells_of_readSingle h

/-- Reading gives a value exactly if the text is a JSON text of it. -/
theorem read_eq_some_iff {text : String} {j : Json} : read? text = some j ↔ IsTextOf text j := by
  constructor
  · intro h
    obtain ⟨⟨j', rest⟩, hv, h⟩ := Option.bind_eq_some_iff.mp h
    simp only at h
    split at h
    · next hrest =>
      cases h
      obtain ⟨u, hu, hs⟩ := spells_of_readValue hv
      obtain ⟨w, hw, hs'⟩ := exists_gap text.toList
      obtain ⟨w', hw', hr⟩ := exists_gap rest
      rw [List.isEmpty_iff.mp hrest, List.append_nil] at hr
      refine ⟨w, u, w', hw, hu, hw', ?_⟩
      rw [hs', hs, hr, List.append_assoc]
    · cases h
  · rintro ⟨w, u, w', hw, hu, hw', ht⟩
    have hskip : skipGap text.toList = u ++ w' := by
      obtain ⟨c, v, rfl, hc, -⟩ := hu.head
      rw [ht, List.append_assoc, skipGap_append hw, List.cons_append, skipGap_cons hc]
    have hlength : u.length ≤ text.toList.length := by
      rw [ht]
      simp
      omega
    have hv := readValue_of_spells hu hlength (noDigitFirst_of_isGap hw')
    have hend : skipGap w' = [] := by
      have := skipGap_append hw' []
      simpa [skipGap] using this
    simp [read?, hskip, hv, hend]

/-- A text has at most one value. -/
theorem IsTextOf.unique {text : String} {j j' : Json} (h : IsTextOf text j)
    (h' : IsTextOf text j') :
    j = j' := by
  rw [← read_eq_some_iff] at h h'
  rw [h] at h'
  exact Option.some.inj h'

end ScriptLint.Json
