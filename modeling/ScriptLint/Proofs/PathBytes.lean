import ScriptLint.Proofs.ByteOrder
import ScriptLint.Proofs.Location

/-!
Paths as bytes. A path that is a text has its parts in the bytes of the text, and what is shown of
it reads the bytes back. Main statements: `lossyFrom_utf8`, reading a text back from its bytes, and
`display_eq`, how a text is shown.
-/

namespace ScriptLint

namespace Utf8

variable {n owed value low high : Nat} {rest : List UInt8}

theorem toNat_ofNat (h : n < 256) : (UInt8.ofNat n).toNat = n := by
  rw [UInt8.toNat_ofNat', Nat.mod_eq_of_lt h]

/-! A character of several bytes begins with one that says how many follow, and between which bounds
the next one lies. -/

theorem opening_two (hlow : 0xc2 ≤ n) (hhigh : n ≤ 0xdf) :
    opening n = some (1, n % 0x20, 0x80, 0xbf) := by
  simp [opening, hlow, hhigh]

theorem opening_three (hlow : 0xe0 ≤ n) (hhigh : n ≤ 0xef) :
    opening n = some (2, n % 0x10, if n = 0xe0 then 0xa0 else 0x80,
      if n = 0xed then 0x9f else 0xbf) := by
  have hall : ∀ n ∈ List.range' 0xe0 16,
      opening n = some (2, n % 0x10, if n = 0xe0 then 0xa0 else 0x80,
        if n = 0xed then 0x9f else 0xbf) := by
    decide
  exact hall n (List.mem_range'_1.mpr ⟨hlow, by omega⟩)

theorem opening_four (hlow : 0xf0 ≤ n) (hhigh : n ≤ 0xf4) :
    opening n = some (3, n % 0x08, if n = 0xf0 then 0x90 else 0x80,
      if n = 0xf4 then 0x8f else 0xbf) := by
  have hall : ∀ n ∈ List.range' 0xf0 5,
      opening n = some (3, n % 0x08, if n = 0xf0 then 0x90 else 0x80,
        if n = 0xf4 then 0x8f else 0xbf) := by
    decide
  exact hall n (List.mem_range'_1.mpr ⟨hlow, by omega⟩)

theorem lossyFrom_opening (hlow : 0x80 ≤ n) (hn : n < 256)
    (h : opening n = some (owed, value, low, high)) :
    lossyFrom 0 0 0 0 (UInt8.ofNat n :: rest) = lossyFrom owed value low high rest := by
  rw [lossyFrom, toNat_ofNat hn, if_neg (Nat.not_lt_of_le hlow), h]

theorem lossyFrom_next (hlow : low ≤ n) (hhigh : n ≤ high) (hn : n < 256) :
    lossyFrom (owed + 2) value low high (UInt8.ofNat n :: rest) =
      lossyFrom (owed + 1) (value * 0x40 + n % 0x40) 0x80 0xbf rest := by
  simp [lossyFrom, toNat_ofNat hn, hlow, hhigh]

theorem lossyFrom_last (hlow : low ≤ n) (hhigh : n ≤ high) (hn : n < 256) :
    lossyFrom 1 value low high (UInt8.ofNat n :: rest) =
      Char.ofNat (value * 0x40 + n % 0x40) :: lossyFrom 0 0 0 0 rest := by
  simp [lossyFrom, toNat_ofNat hn, hlow, hhigh]

/-- Reading goes through the bytes of a character and comes to a new one. -/
theorem lossyFrom_utf8EncodeChar (c : Char) (rest : List UInt8) :
    lossyFrom 0 0 0 0 (String.utf8EncodeChar c ++ rest) = c :: lossyFrom 0 0 0 0 rest := by
  have hc : Char.ofNat c.val.toNat = c := Char.ofNat_toNat c
  have hvalid : c.val.toNat < 0xd800 ∨ 0xdfff < c.val.toNat ∧ c.val.toNat < 0x110000 := c.valid
  unfold String.utf8EncodeChar
  simp only
  generalize c.val.toNat = v at *
  split_ifs with hone htwo hthree
  · rw [List.singleton_append, lossyFrom, toNat_ofNat (by omega), if_pos (by omega), hc]
  · simp only [List.cons_append, List.nil_append]
    rw [lossyFrom_opening (by omega) (by omega) (opening_two (by omega) (by omega)),
      lossyFrom_last (by omega) (by omega) (by omega)]
    exact congrArg (· :: _) ((congrArg Char.ofNat (by omega)).trans hc)
  · simp only [List.cons_append, List.nil_append]
    rw [lossyFrom_opening (by omega) (by omega) (opening_three (by omega) (by omega)),
      lossyFrom_next (by split <;> omega) (by split <;> omega) (by omega),
      lossyFrom_last (by omega) (by omega) (by omega)]
    exact congrArg (· :: _) ((congrArg Char.ofNat (by omega)).trans hc)
  · simp only [List.cons_append, List.nil_append]
    rw [lossyFrom_opening (by omega) (by omega) (opening_four (by omega) (by omega)),
      lossyFrom_next (by split <;> omega) (by split <;> omega) (by omega),
      lossyFrom_next (by omega) (by omega) (by omega),
      lossyFrom_last (by omega) (by omega) (by omega)]
    exact congrArg (· :: _) ((congrArg Char.ofNat (by omega)).trans hc)

theorem lossyFrom_utf8 (s : List Char) :
    lossyFrom 0 0 0 0 (s.flatMap String.utf8EncodeChar) = s := by
  induction s with
  | nil => rfl
  | cons c s ih => rw [List.flatMap_cons, lossyFrom_utf8EncodeChar, ih]

theorem decodeLossy_toUTF8 (text : String) : decodeLossy text.toUTF8 = text.toList :=
  (congrArg (lossyFrom 0 0 0 0) (bytesOf_eq text)).trans (lossyFrom_utf8 text.toList)

end Utf8

namespace Path

/-! ## The parts of a path in its bytes -/

/-- The characters that stand for the bytes of a text. -/
def encode (s : List Char) : List Char :=
  (s.flatMap String.utf8EncodeChar).map Char.ofUInt8

variable {s t seg : List Char} {c : Char}

theorem toUInt8_ofUInt8 (b : UInt8) : (Char.ofUInt8 b).toUInt8 = b :=
  UInt8.toUInt8_toUInt32 b

theorem toBytes_encode (s : List Char) :
    (toBytes (encode s)).data.toList = s.flatMap String.utf8EncodeChar := by
  have hback : Char.toUInt8 ∘ Char.ofUInt8 = id := funext toUInt8_ofUInt8
  simp [toBytes, encode, List.map_map, hback]

theorem decodeLossy_encode (s : List Char) : Utf8.decodeLossy (toBytes (encode s)) = s := by
  rw [Utf8.decodeLossy, toBytes_encode, Utf8.lossyFrom_utf8]

theorem encode_injective : Function.Injective encode :=
  Function.LeftInverse.injective (g := fun s => Utf8.decodeLossy (toBytes s)) decodeLossy_encode

theorem ofBytes_toUTF8 (path : String) : (ofBytes path.toUTF8).toList = encode path.toList := by
  rw [ofBytes, String.toList_ofList, encode, ← bytesOf_eq]
  rfl

theorem encode_append (s t : List Char) : encode (s ++ t) = encode s ++ encode t := by
  simp [encode]

/-- A byte that is a character by itself is in the bytes of no other character. -/
theorem toNat_of_mem_utf8EncodeChar {b : UInt8} (h : b ∈ String.utf8EncodeChar c)
    (hb : b.toNat < 0x80) :
    b.toNat = c.toNat := by
  have hc : c.toNat < 0x110000 := by
    have hvalid : c.toNat < 0xd800 ∨ 0xdfff < c.toNat ∧ c.toNat < 0x110000 := c.valid
    omega
  unfold String.utf8EncodeChar at h
  change b.toNat = c.val.toNat
  change c.val.toNat < _ at hc
  simp only at h
  generalize c.val.toNat = v at *
  split_ifs at h <;> simp only [List.mem_cons, List.not_mem_nil, or_false] at h
  · rw [h, Utf8.toNat_ofNat (by omega)]
  -- All bytes of a longer character are greater.
  · rcases h with rfl | rfl <;> rw [Utf8.toNat_ofNat (by omega)] at hb <;> omega
  · rcases h with rfl | rfl | rfl <;> rw [Utf8.toNat_ofNat (by omega)] at hb <;> omega
  · rcases h with rfl | rfl | rfl | rfl <;> rw [Utf8.toNat_ofNat (by omega)] at hb <;> omega

theorem toNat_ofUInt8 (b : UInt8) : (Char.ofUInt8 b).toNat = b.toNat :=
  rfl

/-- A character with a single byte occurs in the bytes where it occurs in the text. -/
theorem mem_encode_iff (hc : c.toNat < 0x80) : c ∈ encode s ↔ c ∈ s := by
  rw [encode, List.mem_map]
  constructor
  · rintro ⟨b, hb, rfl⟩
    obtain ⟨d, hd, hb⟩ := List.mem_flatMap.mp hb
    have he : b.toNat = d.toNat := toNat_of_mem_utf8EncodeChar hb hc
    rw [← Char.ofNat_toNat (Char.ofUInt8 b), toNat_ofUInt8, he, Char.ofNat_toNat]
    exact hd
  · intro hs
    refine ⟨UInt8.ofNat c.toNat, List.mem_flatMap.mpr ⟨c, hs, ?_⟩, ?_⟩
    · have hv : c.toNat ≤ 0x7f := Nat.le_of_lt_succ hc
      simp [String.utf8EncodeChar, hv]
    · rw [← Char.ofNat_toNat (Char.ofUInt8 _), toNat_ofUInt8, Utf8.toNat_ofNat (by omega),
        Char.ofNat_toNat]

theorem encode_eq_dot_iff : encode seg = ['.'] ↔ seg = ['.'] :=
  encode_injective.eq_iff' rfl

theorem slash_not_mem_encode (h : '/' ∉ seg) : '/' ∉ encode seg := by
  rwa [mem_encode_iff (by decide)]

theorem encode_joinSlash (segs : List (List Char)) :
    encode (joinSlash segs) = joinSlash (segs.map encode) := by
  fun_induction joinSlash segs with
  | case1 => rfl
  | case2 seg => rfl
  | case3 seg segs hne ih =>
    have hslash : encode ('/' :: joinSlash segs) = '/' :: encode (joinSlash segs) := rfl
    rw [encode_append, hslash, ih, List.map_cons, joinSlash]
    simpa using hne

theorem splitSlash_encode (s : List Char) : splitSlash (encode s) = (splitSlash s).map encode := by
  have hsplit := congrArg encode (joinSlash_splitSlash s)
  rw [encode_joinSlash] at hsplit
  rw [← hsplit, splitSlash_joinSlash]
  · simpa using splitSlash_ne_nil s
  · intro seg hseg
    obtain ⟨seg, hmem, rfl⟩ := List.mem_map.mp hseg
    exact slash_not_mem_encode (noSlash_of_mem_splitSlash seg hmem)

theorem isFiller_encode (seg : List Char) : isFiller (encode seg) = isFiller seg := by
  have hnil : encode seg = [] ↔ seg = [] := encode_injective.eq_iff' rfl
  rw [Bool.eq_iff_iff]
  simp only [isFiller, Bool.or_eq_true, List.isEmpty_iff, beq_iff_eq, hnil, encode_eq_dot_iff]

/-- The component that a segment names, in bytes. -/
def Component.encode : Component → Component
  | .name text => .name (Path.encode text)
  | c => c

theorem Component.encode_injective : Function.Injective Component.encode := by
  intro c d h
  cases c with
  | name s =>
    cases d with
    | name t => rw [Path.encode_injective (Component.name.inj h)]
    | _ => cases h
  | _ => cases d <;> cases h; all_goals rfl

theorem component?_encode (seg : List Char) :
    component? (encode seg) = (component? seg).map Component.encode := by
  have hparent : encode seg = ['.', '.'] ↔ seg = ['.', '.'] := encode_injective.eq_iff' rfl
  simp only [component?, isFiller_encode, beq_iff_eq, hparent]
  split
  · rfl
  · split <;> rfl

def Parts.encode (p : Parts) : Parts :=
  { p with body := p.body.map Path.encode }

/-- How a path that does not start with a slash is taken apart. -/
theorem Parts.ofText_cons (hc : c ≠ '/') {segs : List (List Char)}
    (hsplit : splitSlash (c :: s) = seg :: segs) :
    Parts.ofText (c :: s) = if seg = ['.'] then ⟨.current, segs⟩ else ⟨.plain, seg :: segs⟩ := by
  rw [Parts.ofText, hsplit]
  · split
    · next he =>
      cases he
      rfl
    · next hne => exact (if_neg fun he => hne segs (by rw [he])).symm
  · exact nofun
  · exact fun s h => hc (List.cons.inj h).1

theorem Parts.ofText_encode (s : List Char) :
    Parts.ofText (Path.encode s) = (Parts.ofText s).encode := by
  cases s with
  | nil => rfl
  | cons c s =>
    by_cases hc : c = '/'
    · subst hc
      exact congrArg (Parts.mk .root) (splitSlash_encode s)
    · obtain ⟨d, t, ht⟩ := List.exists_cons_of_ne_nil (encode_injective.ne (List.cons_ne_nil c []))
      have hd : d ≠ '/' := by
        rintro rfl
        have hslash : '/' ∈ Path.encode [c] := ht ▸ List.mem_cons_self
        exact hc (List.mem_singleton.mp ((mem_encode_iff (by decide)).mp hslash)).symm
      obtain ⟨seg, segs, hsplit⟩ := List.exists_cons_of_ne_nil (splitSlash_ne_nil (c :: s))
      have hencode := splitSlash_encode (c :: s)
      have hcons : Path.encode (c :: s) = d :: (t ++ Path.encode s) :=
        (encode_append [c] s).trans (congrArg (· ++ Path.encode s) ht)
      rw [hcons, hsplit, List.map_cons] at hencode
      rw [hcons, Parts.ofText_cons hd hencode, Parts.ofText_cons hc hsplit]
      simp only [encode_eq_dot_iff]
      split <;> rfl

theorem filterMap_encode (segs : List (List Char)) :
    (segs.map encode).filterMap component? = (segs.filterMap component?).map Component.encode := by
  rw [List.filterMap_map, List.map_filterMap]
  exact List.filterMap_congr fun seg _ => component?_encode seg

theorem dropWhile_encode (segs : List (List Char)) :
    (segs.map encode).dropWhile isFiller = (segs.dropWhile isFiller).map encode := by
  have hfiller : isFiller ∘ encode = isFiller := funext isFiller_encode
  rw [List.dropWhile_map, hfiller]

theorem trimFillers_encode (segs : List (List Char)) :
    trimFillers (segs.map encode) = (trimFillers segs).map encode := by
  rw [trimFillers, ← List.map_reverse, dropWhile_encode, ← List.map_reverse, trimFillers]

theorem dropComponents_encode (n : Nat) (segs : List (List Char)) :
    dropComponents n (segs.map encode) = (dropComponents n segs).map encode := by
  fun_induction dropComponents n segs with
  | case1 => simp [dropComponents]
  | case2 n => rfl
  | case3 n seg segs hf ih => rw [List.map_cons, dropComponents, isFiller_encode, if_pos hf, ih]
  | case4 n seg segs hf ih => rw [List.map_cons, dropComponents, isFiller_encode, if_neg hf, ih]

namespace Parts

variable (p base : Parts)

theorem components_encode : p.encode.components = p.components.map Component.encode := by
  have hlead : p.lead.components = p.lead.components.map Component.encode := by
    cases p.lead <;> rfl
  rw [components, components, List.map_append, ← filterMap_encode, ← hlead]
  rfl

theorem toText_encode : p.encode.toText = Path.encode p.toText := by
  obtain ⟨lead, body⟩ := p
  cases lead with
  | root => exact congrArg ('/' :: ·) (encode_joinSlash body).symm
  | plain => exact (encode_joinSlash body).symm
  | current =>
    cases body with
    | nil => rfl
    | cons seg body => exact congrArg ('.' :: '/' :: ·) (encode_joinSlash (seg :: body)).symm

theorem below?_encode : p.encode.below? base.encode = (p.below? base).map Path.encode := by
  have hprefix : base.encode.components.isPrefixOf p.encode.components =
      base.components.isPrefixOf p.components := by
    rw [Bool.eq_iff_iff, List.isPrefixOf_iff_prefix, List.isPrefixOf_iff_prefix, components_encode,
      components_encode, List.prefix_map_iff_of_injective Component.encode_injective]
  have hlength : base.encode.components.length = base.components.length := by
    rw [components_encode, List.length_map]
  have htext : toText ⟨p.lead, trimFillers p.encode.body⟩ =
      Path.encode (toText ⟨p.lead, trimFillers p.body⟩) := by
    rw [← toText_encode]
    exact congrArg (fun body => toText ⟨p.lead, body⟩) (trimFillers_encode p.body)
  have hrest (n : Nat) :
      joinSlash (trimFillers ((dropComponents n p.encode.body).dropWhile isFiller)) =
      Path.encode (joinSlash (trimFillers ((dropComponents n p.body).dropWhile isFiller))) := by
    rw [encode_joinSlash, ← trimFillers_encode, ← dropWhile_encode, ← dropComponents_encode]
    rfl
  have hlead : p.encode.lead = p.lead := rfl
  simp only [below?, hprefix, hlength, htext, hrest, hlead]
  split
  · rfl
  · split <;> rfl

end Parts

theorem belowRoot_encode (path : String) (root : Option String) :
    belowRoot (ofBytes path.toUTF8) ((root.map String.toUTF8).map ofBytes) =
      encode (belowRoot path root) := by
  cases root with
  | none => exact ofBytes_toUTF8 path
  | some root =>
    simp only [belowRoot, Option.map_some, Option.bind_some, ofBytes_toUTF8, Parts.ofText_encode,
      Parts.below?_encode]
    cases (Parts.ofText path.toList).below? (Parts.ofText root.toList) <;> rfl

/-- How a path that is a text is shown: nothing in it is replaced. -/
theorem display_eq (path : String) (root : Option String) :
    display path root =
      let shown := normalizeSeparators (String.ofList (belowRoot path root))
      if shown = "" then "." else shown := by
  rw [display, displayBytes, shownBytes, belowRoot_encode, decodeLossy_encode]

end Path

end ScriptLint
