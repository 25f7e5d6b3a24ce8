/-!
Text from bytes. Strict reading refuses bytes that are not UTF-8. Lossy reading puts one replacement
character for each maximal part of the bytes that begins a character but cannot be continued.
-/

namespace ScriptLint.Utf8

/-- The text that the bytes spell, if they are UTF-8. -/
def decode? (bytes : ByteArray) : Option String :=
  String.fromUTF8? bytes

@[simp] theorem decode?_toUTF8 (text : String) : decode? text.toUTF8 = some text := by
  rw [decode?, String.fromUTF8?]
  exact dif_pos text.isValidUTF8

/-- How a character begins: the number of bytes that follow the first one, the payload of the first
byte, and the bounds of the second byte. A first byte that begins no character gives none. -/
def opening (b : Nat) : Option (Nat × Nat × Nat × Nat) :=
  if 0xc2 ≤ b && b ≤ 0xdf then some (1, b % 0x20, 0x80, 0xbf)
  else if b == 0xe0 then some (2, b % 0x10, 0xa0, 0xbf)
  else if b == 0xed then some (2, b % 0x10, 0x80, 0x9f)
  else if 0xe1 ≤ b && b ≤ 0xef then some (2, b % 0x10, 0x80, 0xbf)
  else if b == 0xf0 then some (3, b % 0x08, 0x90, 0xbf)
  else if 0xf1 ≤ b && b ≤ 0xf3 then some (3, b % 0x08, 0x80, 0xbf)
  else if b == 0xf4 then some (3, b % 0x08, 0x80, 0x8f)
  else none

/-- The character that stands for bytes that are not UTF-8. -/
def replacement : Char := Char.ofNat 0xfffd

/-- Reads a character that is open: `owed` bytes are missing, `value` is the payload so far, and the
next byte lies between `low` and `high` if it continues the character. With nothing owed, a new
character begins. -/
def lossyFrom : (owed value low high : Nat) → List UInt8 → List Char
  | 0, _, _, _, [] => []
  | _ + 1, _, _, _, [] => [replacement]
  | 0, _, _, _, b :: rest =>
    if b.toNat < 0x80 then Char.ofNat b.toNat :: lossyFrom 0 0 0 0 rest
    else match opening b.toNat with
      | some (owed, value, low, high) => lossyFrom owed value low high rest
      | none => replacement :: lossyFrom 0 0 0 0 rest
  | owed + 1, value, low, high, b :: rest =>
    if low ≤ b.toNat && b.toNat ≤ high then
      let value := value * 0x40 + b.toNat % 0x40
      if owed = 0 then Char.ofNat value :: lossyFrom 0 0 0 0 rest
      else lossyFrom owed value 0x80 0xbf rest
    else if b.toNat < 0x80 then replacement :: Char.ofNat b.toNat :: lossyFrom 0 0 0 0 rest
    else match opening b.toNat with
      | some (owed, value, low, high) => replacement :: lossyFrom owed value low high rest
      | none => replacement :: replacement :: lossyFrom 0 0 0 0 rest

/-- The text that the bytes spell, with replacement characters where they are not UTF-8. -/
def decodeLossy (bytes : ByteArray) : List Char :=
  lossyFrom 0 0 0 0 bytes.data.toList

end ScriptLint.Utf8
