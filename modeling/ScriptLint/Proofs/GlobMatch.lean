import Mathlib
import ScriptLint.Glob.Match
import ScriptLint.Glob.Parser
import ScriptLint.Proofs.ByteOrder
import ScriptLint.Proofs.Location

/-!
What it means that a pattern matches. Main statements: `matches_of_isMatch`, the flags of the
matcher mark only the ends of what the pattern stands for, and `mem_dropLast_of_isMatch`, a pattern
for all that is in directories of a name matches no path without such a directory.
-/

namespace ScriptLint

theorem toList_loop (bytes : ByteArray) (i : Nat) (read : List UInt8) :
    ByteArray.toList.loop bytes i read = read.reverse ++ bytes.data.toList.drop i := by
  fun_induction ByteArray.toList.loop bytes i read with
  | case1 i read h ih =>
    have hi : i < bytes.data.toList.length := by simpa using h
    have hget : bytes.get! i = bytes.data.toList[i] := by
      simpa [ByteArray.get!] using getElem!_pos bytes.data i h
    rw [ih, List.drop_eq_getElem_cons hi, hget]
    simp
  | case2 i read h =>
    simpa [← ByteArray.size_data] using h

/-- Both ways of listing the bytes of a text. -/
theorem toList_toUTF8 (text : String) : text.toUTF8.toList = bytesOf text := by
  rw [ByteArray.toList, toList_loop]
  rfl

namespace Glob

/-- The bytes that a pattern stands for. -/
inductive Matches : Glob → List UInt8 → Prop
  | empty : Matches .empty []
  | literal (c : Char) : Matches (.literal c) (String.utf8EncodeChar c)
  | any (b : UInt8) : Matches .any [b]
  | star (s : List UInt8) : Matches .star s
  | start : Matches .deepStart []
  | deepStart (s : List UInt8) : Matches .deepStart (s ++ [0x2f])
  | deepEnd (s : List UInt8) : Matches .deepEnd (0x2f :: s)
  | slash : Matches .deepMiddle [0x2f]
  | deepMiddle (s : List UInt8) : Matches .deepMiddle (0x2f :: s ++ [0x2f])
  | oneOf {negated : Bool} {ranges : List (Char × Char)} {b : UInt8}
      (h : (ranges.any (inRange b) != negated) = true) : Matches (.oneOf negated ranges) [b]
  | append {first second : Glob} {s s' : List UInt8} (h : Matches first s)
    (h' : Matches second s') :
      Matches (.append first second) (s ++ s')
  | first {first second : Glob} {s : List UInt8} (h : Matches first s) :
    Matches (.either first second) s
  | second {first second : Glob} {s : List UInt8} (h : Matches second s) :
    Matches (.either first second) s

/-- The text consists of two parts, and the place between them is flagged. -/
structure Flagged (text : List UInt8) (flags : List Bool) (before after : List UInt8) : Prop where
  text : text = before ++ after
  flag : flags[before.length]? = some true

variable {text before after : List UInt8} {flags flags' : List Bool} {p : UInt8 → Bool}

/-- A place after a byte that was passed over. -/
theorem flagged_passByte {arrived : Bool}
    (h : Flagged text (passByte p arrived text flags) before after) :
    before = [] ∧ arrived = true ∨
      ∃ early b, before = early ++ [b] ∧ p b = true ∧ Flagged text flags early (b :: after) := by
  fun_induction passByte p arrived text flags generalizing before with
  | case1 arrived b text here flags ih =>
    cases before with
    | nil => exact .inl ⟨rfl, by simpa using h.flag⟩
    | cons first before =>
      obtain ⟨htext, hflag⟩ := h
      obtain ⟨rfl, hrest⟩ := List.cons.inj htext
      rcases ih ⟨hrest, by simpa using hflag⟩ with ⟨rfl, hhere⟩ | ⟨early, b', rfl, hp, hearly⟩
      · rw [Bool.and_eq_true] at hhere
        exact .inr ⟨[], b, rfl, hhere.2, by simp [hrest], by simp [hhere.1]⟩
      · exact .inr ⟨b :: early, b', rfl, hp, by simp [hearly.text], by simpa using hearly.flag⟩
  | case2 text arrived flags _ =>
    cases before with
    | nil => exact .inl ⟨rfl, by simpa using h.flag⟩
    | cons first before => simpa using h.flag

/-- A place after bytes that were passed over. -/
theorem flagged_passBytes {bytes : List UInt8}
    (h : Flagged text (passBytes text bytes flags) before after) :
    ∃ early, before = early ++ bytes ∧ Flagged text flags early (bytes ++ after) := by
  induction bytes generalizing flags with
  | nil => exact ⟨before, by simp, h⟩
  | cons b bytes ih =>
    obtain ⟨early, rfl, hearly⟩ := ih h
    rcases flagged_passByte hearly with ⟨_, h⟩ | ⟨first, b', rfl, hb, hfirst⟩
    · cases h
    · rw [beq_iff_eq] at hb
      subst hb
      exact ⟨first, by simp, hfirst⟩

/-- A place at or after a flagged one. -/
theorem flagged_spread {seen : Bool} (h : Flagged text (spread seen flags) before after) :
    seen = true ∨ ∃ early between, before = early ++ between ∧
      Flagged text flags early (between ++ after) := by
  induction flags generalizing seen text before with
  | nil => simpa [spread] using h.flag
  | cons flag flags ih =>
    have hhere (hflag : flag = true) : Flagged text (flag :: flags) [] (before ++ after) :=
      ⟨h.text, by simp [hflag]⟩
    cases before with
    | nil =>
      have hflag : seen = true ∨ flag = true := by simpa [spread] using h.flag
      exact hflag.imp_right fun hflag => ⟨[], [], rfl, hhere hflag⟩
    | cons b before =>
      rcases ih ⟨rfl, by simpa [spread] using h.flag⟩ with hflag | ⟨early, between, rfl, hearly⟩
      · rw [Bool.or_eq_true] at hflag
        exact hflag.imp_right fun hflag => ⟨[], b :: before, rfl, hhere hflag⟩
      · exact .inr ⟨b :: early, between, rfl, by simp [h.text], by simpa using hearly.flag⟩

theorem flagged_union (h : Flagged text (union flags flags') before after) :
    Flagged text flags before after ∨ Flagged text flags' before after := by
  obtain ⟨htext, hflag⟩ := h
  rw [union, List.getElem?_zipWith] at hflag
  split at hflag
  · next a b ha hb =>
    simp only [Option.some.injEq, Bool.or_eq_true] at hflag
    rcases hflag with rfl | rfl
    · exact .inl ⟨htext, ha⟩
    · exact .inr ⟨htext, hb⟩
  · cases hflag

theorem flagged_spread_false (h : Flagged text (spread false flags) before after) :
    ∃ early between, before = early ++ between ∧ Flagged text flags early (between ++ after) :=
  (flagged_spread h).resolve_left Bool.false_ne_true

/-- What a pattern reaches from flagged places is what it stands for, after one of them. -/
theorem matches_of_reach (g : Glob) (h : Flagged text (reach text g flags) before after) :
    ∃ early s, before = early ++ s ∧ Flagged text flags early (s ++ after) ∧ g.Matches s := by
  induction g generalizing flags before after with
  | empty => exact ⟨before, [], by simp, h, .empty⟩
  | literal c =>
    obtain ⟨early, rfl, hearly⟩ := flagged_passBytes h
    exact ⟨early, _, rfl, hearly, .literal c⟩
  | any =>
    rcases flagged_passByte h with ⟨_, h⟩ | ⟨early, b, rfl, _, hearly⟩
    · cases h
    · exact ⟨early, [b], rfl, hearly, .any b⟩
  | star =>
    obtain ⟨early, between, rfl, hearly⟩ := flagged_spread_false h
    exact ⟨early, between, rfl, hearly, .star between⟩
  | deepStart =>
    rcases flagged_union h with h | h
    · exact ⟨before, [], by simp, h, .start⟩
    · obtain ⟨middle, rfl, hmiddle⟩ := flagged_passBytes h
      obtain ⟨early, between, rfl, hearly⟩ := flagged_spread_false hmiddle
      exact ⟨early, between ++ [0x2f], by simp, by simpa using hearly, .deepStart between⟩
  | deepEnd =>
    obtain ⟨middle, between, rfl, hmiddle⟩ := flagged_spread_false h
    obtain ⟨early, rfl, hearly⟩ := flagged_passBytes hmiddle
    exact ⟨early, 0x2f :: between, by simp, hearly, .deepEnd between⟩
  | deepMiddle =>
    rcases flagged_union h with h | h
    · obtain ⟨early, rfl, hearly⟩ := flagged_passBytes h
      exact ⟨early, [0x2f], rfl, hearly, .slash⟩
    · obtain ⟨late, rfl, hlate⟩ := flagged_passBytes h
      obtain ⟨middle, between, rfl, hmiddle⟩ := flagged_spread_false hlate
      obtain ⟨early, rfl, hearly⟩ := flagged_passBytes hmiddle
      exact ⟨early, 0x2f :: between ++ [0x2f], by simp, by simpa using hearly, .deepMiddle between⟩
  | oneOf negated ranges =>
    rcases flagged_passByte h with ⟨_, h⟩ | ⟨early, b, rfl, hb, hearly⟩
    · cases h
    · exact ⟨early, [b], rfl, hearly, .oneOf hb⟩
  | append first second ih ih' =>
    obtain ⟨middle, s', rfl, hmiddle, hsecond⟩ := ih' h
    obtain ⟨early, s, rfl, hearly, hfirst⟩ := ih hmiddle
    exact ⟨early, s ++ s', by simp, by simpa using hearly, .append hfirst hsecond⟩
  | either first second ih ih' =>
    rcases flagged_union h with h | h
    · obtain ⟨early, s, rfl, hearly, hfirst⟩ := ih h
      exact ⟨early, s, rfl, hearly, .first hfirst⟩
    · obtain ⟨early, s, rfl, hearly, hsecond⟩ := ih' h
      exact ⟨early, s, rfl, hearly, .second hsecond⟩

theorem length_passByte (p : UInt8 → Bool) (arrived : Bool) (text : List UInt8)
    (flags : List Bool) :
    (passByte p arrived text flags).length = min text.length flags.length + 1 := by
  fun_induction passByte p arrived text flags with
  | case1 arrived b text here flags ih => simp [ih]
  | case2 text arrived flags h =>
    cases text with
    | nil => simp
    | cons b text =>
      cases flags with
      | nil => simp
      | cons here flags => exact (h b text here flags rfl rfl).elim

theorem length_passBytes {bytes : List UInt8} (h : flags.length = text.length + 1) :
    (passBytes text bytes flags).length = text.length + 1 := by
  induction bytes generalizing flags with
  | nil => exact h
  | cons b bytes ih => exact ih (by rw [length_passByte, h]; omega)

theorem length_spread (seen : Bool) (flags : List Bool) :
    (spread seen flags).length = flags.length := by
  induction flags generalizing seen with
  | nil => rfl
  | cons flag flags ih => simp [spread, ih]

theorem length_reach (g : Glob) (h : flags.length = text.length + 1) :
    (reach text g flags).length = text.length + 1 := by
  induction g generalizing flags with
  | append first second ih ih' => exact ih' (ih h)
  | either first second ih ih' => simp [reach, union, ih h, ih' h]
  | _ => simp [reach, union, length_passByte, length_passBytes, length_spread, h]

/-- A path that a pattern matches is spelt by bytes that the pattern stands for. -/
theorem matches_of_isMatch {g : Glob} {path : String} (h : g.isMatch path = true) :
    g.Matches (bytesOf path) := by
  rw [isMatch, toList_toUTF8] at h
  generalize bytesOf path = text at h ⊢
  have hlength : (reach text g (true :: text.map fun _ => false)).length = text.length + 1 :=
    length_reach g (by simp)
  have hlast : Flagged text (reach text g (true :: text.map fun _ => false)) text [] := by
    refine ⟨(List.append_nil text).symm, ?_⟩
    rw [List.getLast?_eq_getElem?, hlength] at h
    exact beq_iff_eq.mp h
  obtain ⟨early, s, rfl, hearly, hs⟩ := matches_of_reach g hlast
  cases early with
  | nil => exact hs
  | cons b early =>
    have hflag := hearly.flag
    rw [List.length_cons, List.getElem?_cons_succ, List.getElem?_map] at hflag
    simp at hflag

theorem matches_andThen {g g' : Glob} {s : List UInt8} (h : (g.andThen g').Matches s) :
    ∃ a b, s = a ++ b ∧ g.Matches a ∧ g'.Matches b := by
  unfold andThen at h
  split at h
  · exact ⟨[], s, rfl, .empty, h⟩
  · exact ⟨s, [], (List.append_nil s).symm, h, .empty⟩
  · cases h with
    | append h h' => exact ⟨_, _, rfl, h, h'⟩

/-- The pattern for all that is in directories of a name. -/
def allBelow (name : List Char) : Glob :=
  sequence (.deepStart :: (name.map .literal ++ [.deepEnd]))

/-- Characters that stand for themselves, and then all that is below them. -/
theorem matches_literals {name : List Char} {s : List UInt8}
    (h : (sequence (name.map .literal ++ [.deepEnd])).Matches s) :
    ∃ rest, s = name.flatMap String.utf8EncodeChar ++ 0x2f :: rest := by
  induction name generalizing s with
  | nil =>
    cases h with
    | deepEnd rest => exact ⟨rest, rfl⟩
  | cons c name ih =>
    obtain ⟨a, b, rfl, hc, hname⟩ := matches_andThen h
    obtain ⟨rest, rfl⟩ := ih hname
    cases hc
    exact ⟨rest, by simp⟩

theorem matches_allBelow {name : List Char} {s : List UInt8} (h : (allBelow name).Matches s) :
    ∃ before after, s = before ++ name.flatMap String.utf8EncodeChar ++ 0x2f :: after ∧
      (before = [] ∨ ∃ early, before = early ++ [0x2f]) := by
  obtain ⟨before, b, rfl, hstart, hname⟩ := matches_andThen h
  obtain ⟨after, rfl⟩ := matches_literals hname
  refine ⟨before, after, by simp, ?_⟩
  cases hstart with
  | start => exact .inl rfl
  | deepStart early => exact .inr ⟨early, rfl⟩

end Glob

/-! ## Slashes among the bytes of a path -/

theorem eq_slash_of_mem {c : Char} (h : 0x2f ∈ String.utf8EncodeChar c) : c = '/' := by
  refine Char.ext (UInt32.toNat_inj.mp ?_)
  unfold String.utf8EncodeChar at h
  simp only at h
  generalize c.val.toNat = v at *
  show v = 0x2f
  -- The bytes of a character that takes more than one of them are greater than a slash.
  split_ifs at h <;>
    simp only [List.mem_cons, List.not_mem_nil, or_false, ← UInt8.toNat_inj,
      UInt8.toNat_ofNat'] at h <;>
    simp at h <;> omega

theorem flatMap_utf8EncodeChar_inj {s s' : List Char}
    (h : s.flatMap String.utf8EncodeChar = s'.flatMap String.utf8EncodeChar) : s = s' := by
  have hbytes : bytesOf (String.ofList s) = bytesOf (String.ofList s') := by
    rw [bytesOf_eq, bytesOf_eq, String.toList_ofList, String.toList_ofList, h]
  have htext : (String.ofList s).toUTF8 = (String.ofList s').toUTF8 :=
    ByteArray.ext (Array.toList_inj.mp hbytes)
  exact String.ofList_injective (String.toByteArray_inj.mp htext)

/-- A slash among the bytes of a text is one of its characters. -/
theorem exists_append_of_slash {s : List Char} {before after : List UInt8}
    (h : s.flatMap String.utf8EncodeChar = before ++ 0x2f :: after) :
    ∃ x y, s = x ++ '/' :: y ∧ x.flatMap String.utf8EncodeChar = before ∧
      y.flatMap String.utf8EncodeChar = after := by
  induction s generalizing before with
  | nil =>
    rw [List.flatMap_nil] at h
    cases before <;> cases h
  | cons c s ih =>
    rw [List.flatMap_cons] at h
    rcases List.append_eq_append_iff.mp h with ⟨between, rfl, hrest⟩ | ⟨between, hc, hrest⟩
    · obtain ⟨x, y, rfl, rfl, rfl⟩ := ih hrest
      exact ⟨c :: x, y, rfl, by simp, rfl⟩
    · cases between with
      | nil =>
        obtain ⟨x, y, rfl, hx, rfl⟩ := @ih [] hrest.symm
        exact ⟨c :: x, y, rfl, by simp [hx, hc], rfl⟩
      | cons b between =>
        obtain ⟨rfl, rfl⟩ := List.cons.inj hrest
        have hslash : c = '/' := eq_slash_of_mem (by simp [hc])
        subst hslash
        have hone : String.utf8EncodeChar '/' = [0x2f] := by decide
        rw [hone] at hc
        cases before with
        | nil =>
          obtain rfl : between = [] := by simpa using hc.symm
          exact ⟨[], s, rfl, rfl, rfl⟩
        | cons b before => cases before <;> cases hc

/-- A path that the pattern for all that is in directories of a name matches has such a directory in
it. -/
theorem mem_dropLast_of_isMatch {way : Location} {name : List Char} (hw : ∀ n ∈ way, IsName n)
    (hn : IsName name) (h : (Glob.allBelow name).isMatch way.toPath = true) : name ∈
      way.dropLast := by
  obtain ⟨before, after, hbytes, hbefore⟩ := Glob.matches_allBelow (Glob.matches_of_isMatch h)
  rw [bytesOf_eq] at hbytes
  obtain ⟨x, y, hpath, hx, -⟩ := exists_append_of_slash hbytes
  rcases hbefore with rfl | ⟨early, rfl⟩
  · -- The path of a location starts with a slash, and a name does not.
    have hxname : x = name := flatMap_utf8EncodeChar_inj hx
    subst hxname
    cases x with
    | nil => exact absurd hn.notFiller (by decide)
    | cons c x =>
      rw [Location.toPath, String.toList_ofList] at hpath
      obtain ⟨rfl, -⟩ := List.cons.inj hpath
      exact absurd List.mem_cons_self hn.noSlash
  · rw [List.append_assoc, List.singleton_append] at hx
    obtain ⟨above, last, rfl, -, hlast⟩ := exists_append_of_slash hx
    have hlastname : last = name := flatMap_utf8EncodeChar_inj hlast
    subst hlastname
    have hsplit := congrArg Path.splitSlash hpath
    rw [Location.splitSlash_toPath fun n hm => (hw n hm).noSlash, Path.splitSlash_append,
      Path.splitSlash_append, Path.splitSlash_of_no_slash hn.noSlash] at hsplit
    obtain ⟨first, rest, hfirst⟩ := List.exists_cons_of_ne_nil (Path.splitSlash_ne_nil above)
    have hy := Path.splitSlash_ne_nil y
    rw [hfirst, List.cons_append, List.cons_append] at hsplit
    have hway := (List.cons.inj hsplit).2
    split at hway
    · have hlength := congrArg List.length hway
      have hpos := List.length_pos_iff.mpr hy
      simp only [List.length_append, List.length_singleton] at hlength
      omega
    · rw [hway, List.dropLast_append_of_ne_nil hy]
      simp

end ScriptLint
