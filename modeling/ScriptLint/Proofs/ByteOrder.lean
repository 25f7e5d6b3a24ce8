import Mathlib.Data.String.Basic

/-!
The bytes of texts and their order. Main statement: `bytesOf_lt`, texts in the order of their
characters are in the order of their bytes.
-/

namespace ScriptLint

/-- The bytes of a text in UTF-8. -/
def bytesOf (s : String) : List UInt8 :=
  s.toUTF8.data.toList

theorem bytesOf_eq (s : String) : bytesOf s = s.toList.flatMap String.utf8EncodeChar := by
  simp [bytesOf, ← String.utf8Encode_toList, List.utf8Encode]

/-- The first byte decides unless it is the same. -/
theorem ofNat_cons_lt {x y : List UInt8} {m n : Nat} (hle : m ≤ n) (hn : n < 256)
    (h : m = n → x < y) :
    UInt8.ofNat m :: x < UInt8.ofNat n :: y := by
  refine List.cons_lt_cons_iff.mpr ?_
  rcases Nat.lt_or_eq_of_le hle with hlt | rfl
  · rw [UInt8.lt_iff_toNat_lt, UInt8.toNat_ofNat', UInt8.toNat_ofNat']
    exact .inl (by omega)
  · exact .inr ⟨rfl, h rfl⟩

/-- The bytes of the smaller character come first, whatever follows them. -/
theorem utf8EncodeChar_append_lt {a b : Char} (h : a < b) (x y : List UInt8) :
    String.utf8EncodeChar a ++ x < String.utf8EncodeChar b ++ y := by
  have hv : a.val.toNat < b.val.toNat := h
  have hb : b.val.toNat < 0x110000 := by
    have hvalid := b.valid
    simp only [UInt32.isValidChar, Nat.isValidChar] at hvalid
    omega
  unfold String.utf8EncodeChar
  simp only
  generalize a.val.toNat = v at *
  generalize b.val.toNat = w at *
  -- More bytes begin with a greater one; among as many bytes, each has six bits less to decide.
  split_ifs <;> simp only [List.cons_append, List.nil_append] <;> try omega
  · exact ofNat_cons_lt (by omega) (by omega) (by omega)
  · exact ofNat_cons_lt (by omega) (by omega) (by omega)
  · exact ofNat_cons_lt (by omega) (by omega) (by omega)
  · exact ofNat_cons_lt (by omega) (by omega) (by omega)
  · refine ofNat_cons_lt (by omega) (by omega) fun _ => ?_
    exact ofNat_cons_lt (by omega) (by omega) (by omega)
  · exact ofNat_cons_lt (by omega) (by omega) (by omega)
  · exact ofNat_cons_lt (by omega) (by omega) (by omega)
  · refine ofNat_cons_lt (by omega) (by omega) fun _ => ?_
    refine ofNat_cons_lt (by omega) (by omega) fun _ => ?_
    exact ofNat_cons_lt (by omega) (by omega) (by omega)
  · exact ofNat_cons_lt (by omega) (by omega) (by omega)
  · refine ofNat_cons_lt (by omega) (by omega) fun _ => ?_
    refine ofNat_cons_lt (by omega) (by omega) fun _ => ?_
    refine ofNat_cons_lt (by omega) (by omega) fun _ => ?_
    exact ofNat_cons_lt (by omega) (by omega) (by omega)

theorem flatMap_utf8EncodeChar_lt {s t : List Char} (h : s < t) :
    s.flatMap String.utf8EncodeChar < t.flatMap String.utf8EncodeChar := by
  induction h with
  | @nil c t =>
    rw [List.flatMap_nil, List.flatMap_cons]
    cases hc : String.utf8EncodeChar c with
    | nil => exact absurd hc String.utf8EncodeChar_ne_nil
    | cons b bs => exact List.nil_lt_cons _ _
  | rel h => exact utf8EncodeChar_append_lt h _ _
  | cons _ ih =>
    rw [List.flatMap_cons, List.flatMap_cons]
    exact List.append_left_lt ih

/-- Texts in the order of their characters are in the order of their bytes. -/
theorem bytesOf_lt {s t : String} (h : s < t) : bytesOf s < bytesOf t := by
  rw [bytesOf_eq, bytesOf_eq]
  exact flatMap_utf8EncodeChar_lt h

end ScriptLint
